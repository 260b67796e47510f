import Mathlib.Order.WithBot
import Mathlib.Tactic.Linarith
import ERP.Lib.OrderedMap
import ERP.Lib.Sorting
import ERP.Store

/-!
# What is available

`InventoryRepository.stockBalances` and `availability`: two reports over the stock
rows of an item.  The first adds up the rows of a location; the second keeps the
row it meets last, and adds what is reserved and the locations that have a reorder
rule.  A location is a warehouse of the tenant, or none; only the rows without a
warehouse can be several.
-/

namespace ERP
namespace Inventory

open Lib

inductive ReorderScope where
  | perWarehouse | tenantItemTotal
  deriving DecidableEq, Repr

def ReorderScope.rank : ReorderScope → Nat
  | .perWarehouse => 0
  | .tenantItemTotal => 1

inductive ReorderQuantityStrategy where
  | targetStock | fixedQuantity
  deriving DecidableEq, Repr

inductive ReorderAction where
  | alertOnly | alertAndSuggest
  deriving DecidableEq, Repr

structure ReorderRule where
  id : Id
  tenantId : Id
  inventoryItemId : Id
  warehouseId : Option Id
  locationKey : String
  scope : ReorderScope
  quantityStrategy : ReorderQuantityStrategy
  action : ReorderAction
  reorderPoint : ℚ
  targetStock : Option ℚ
  fixedOrderQuantity : Option ℚ
  deriving DecidableEq, Repr

structure StockRow extends InventoryStock where
  updatedAt : Int
  deriving DecidableEq, Repr

/-- The tables that the reports read; the unique key of the stock rows admits several
rows of an item only without a warehouse. -/
structure ReportDB where
  items : List InventoryItem
  warehouses : List Warehouse
  stocks : List StockRow
  movements : List InventoryMovement
  reorderRules : List ReorderRule
  stockKey : stocks.Pairwise fun r s =>
    ¬ (r.inventoryItemId = s.inventoryItemId ∧ r.warehouseId = s.warehouseId ∧ r.warehouseId ≠ none)

/-- The orders in which queries without one return the rows. -/
structure Scan where
  stocks : List StockRow → List StockRow
  movements : List InventoryMovement → List InventoryMovement
  stocks_perm : ∀ rows, (stocks rows).Perm rows
  movements_perm : ∀ rows, (movements rows).Perm rows

namespace ReportDB

variable (db : ReportDB)

def findItem (tenantId inventoryItemId : Id) : Option InventoryItem :=
  db.items.find? fun row => row.id = inventoryItemId ∧ row.tenantId = tenantId

def warehouse (warehouseId : Option Id) : Option Warehouse :=
  db.warehouses.find? fun row => some row.id = warehouseId

/-- `OR: [{ warehouseId: null }, { Warehouse: { is: { tenantId } } }]`. -/
def atLocation (tenantId : Id) (warehouseId : Option Id) : Bool :=
  warehouseId = none ∨ ∃ row ∈ db.warehouses, some row.id = warehouseId ∧ row.tenantId = tenantId

/-- The stock rows of an item at the locations of the tenant. -/
def stockRows (tenantId inventoryItemId : Id) : List StockRow :=
  db.stocks.filter fun row =>
    row.inventoryItemId = inventoryItemId ∧ db.atLocation tenantId row.warehouseId

/-- The ACTIVE reservations of an item at the locations of the tenant. -/
def reservations (tenantId inventoryItemId : Id) : List InventoryMovement :=
  db.movements.filter fun row => row.tenantId = tenantId ∧
    row.inventoryItemId = inventoryItemId ∧ row.referenceType = some .orderReservation ∧
      db.atLocation tenantId row.warehouseId

/-- The reorder rules of an item, by scope and location. -/
def rules (tenantId inventoryItemId : Id) : List ReorderRule :=
  orderBy (fun rule => toLex (rule.scope.rank, rule.locationKey))
    (db.reorderRules.filter fun rule =>
      rule.tenantId = tenantId ∧ rule.inventoryItemId = inventoryItemId)

end ReportDB

/-! ## Stock balances -/

structure StockBalance where
  warehouseId : Option Id
  warehouse : Option Warehouse
  quantity : ℚ
  updatedAt : Int
  deriving DecidableEq, Repr

structure StockBalances where
  item : InventoryItem
  balances : List StockBalance
  totalQuantity : ℚ
  deriving DecidableEq, Repr

/-- One stock row of the loop of `stockBalances`. -/
def addBalance (db : ReportDB) (balanceByWarehouse : OrderedMap (Option Id) StockBalance)
    (stock : StockRow) : OrderedMap (Option Id) StockBalance :=
  match balanceByWarehouse.get stock.warehouseId with
  | some current =>
      balanceByWarehouse.set stock.warehouseId
        { current with
          quantity := current.quantity + stock.quantity
          updatedAt := if current.updatedAt < stock.updatedAt then stock.updatedAt
            else current.updatedAt }
  | none =>
      balanceByWarehouse.set stock.warehouseId
        { warehouseId := stock.warehouseId, warehouse := db.warehouse stock.warehouseId,
          quantity := stock.quantity, updatedAt := stock.updatedAt }

/-- `orderBy: [{ warehouseId: 'asc' }, { updatedAt: 'desc' }]`; nulls come last. -/
def stockOrder (stamp : Stamp) (row : StockRow) : WithTop String ×ₗ Intᵒᵈ :=
  toLex (row.warehouseId.map stamp.cuid, OrderDual.toDual row.updatedAt)

def stockBalances (stamp : Stamp) (db : ReportDB) (tenantId inventoryItemId : Id) :
    Except Failure StockBalances :=
  match db.findItem tenantId inventoryItemId with
  | none => .error .inventoryItemNotFound
  | some item =>
      let stockRows := orderBy (stockOrder stamp) (db.stockRows tenantId inventoryItemId)
      let balances := (stockRows.foldl (addBalance db) .empty).values
      .ok { item, balances, totalQuantity := (balances.map StockBalance.quantity).sum }

/-! ## Availability -/

structure LocationBalance where
  warehouseId : Option Id
  warehouse : Option Warehouse
  availableQuantity : ℚ
  reservedQuantity : ℚ
  deriving DecidableEq, Repr

inductive ReorderStatus where
  | reorderRequired | sufficient
  deriving DecidableEq, Repr

structure ReorderRecommendation where
  scope : ReorderScope
  warehouseId : Option Id
  action : ReorderAction
  status : ReorderStatus
  reorderPoint : ℚ
  availableQuantity : ℚ
  recommendedQuantity : Option ℚ
  deriving DecidableEq, Repr

def buildReorderRecommendation (rule : ReorderRule) (availableQuantity : ℚ) :
    ReorderRecommendation :=
  let reorderRequired := availableQuantity ≤ rule.reorderPoint
  { scope := rule.scope, warehouseId := rule.warehouseId, action := rule.action
    status := if reorderRequired then .reorderRequired else .sufficient
    reorderPoint := rule.reorderPoint, availableQuantity
    recommendedQuantity :=
      if reorderRequired ∧ rule.action = .alertAndSuggest then
        if rule.quantityStrategy = .targetStock then
          some (max 0 (rule.targetStock.getD 0 - availableQuantity))
        else some (rule.fixedOrderQuantity.getD 0)
      else none }

structure Location extends LocationBalance where
  onHandQuantity : ℚ
  replenishment : Option ReorderRecommendation
  deriving DecidableEq, Repr

structure Totals where
  availableQuantity : ℚ
  reservedQuantity : ℚ
  onHandQuantity : ℚ
  deriving DecidableEq, Repr

structure Availability where
  item : InventoryItem
  balances : List Location
  totals : Totals
  tenantTotalReplenishment : Option ReorderRecommendation
  reorderRules : List ReorderRule
  deriving DecidableEq, Repr

/-- The loop over the stock rows: a row replaces what its location had. -/
def putStock (db : ReportDB) (balances : OrderedMap (Option Id) LocationBalance)
    (stock : StockRow) : OrderedMap (Option Id) LocationBalance :=
  balances.set stock.warehouseId
    { warehouseId := stock.warehouseId, warehouse := db.warehouse stock.warehouseId,
      availableQuantity := stock.quantity, reservedQuantity := 0 }

/-- The loop over the reservations. -/
def addReservation (db : ReportDB) (balances : OrderedMap (Option Id) LocationBalance)
    (reservation : InventoryMovement) : OrderedMap (Option Id) LocationBalance :=
  let balance := (balances.get reservation.warehouseId).getD
    { warehouseId := reservation.warehouseId, warehouse := db.warehouse reservation.warehouseId,
      availableQuantity := 0, reservedQuantity := 0 }
  balances.set reservation.warehouseId
    { balance with reservedQuantity := balance.reservedQuantity + reservation.quantity }

/-- The loop over the reorder rules: the locations that have a rule and no row. -/
def addRule (db : ReportDB) (balances : OrderedMap (Option Id) LocationBalance)
    (rule : ReorderRule) : OrderedMap (Option Id) LocationBalance :=
  if rule.scope = .perWarehouse ∧ rule.warehouseId ≠ none ∧ ¬ balances.has rule.warehouseId then
    balances.set rule.warehouseId
      { warehouseId := rule.warehouseId, warehouse := db.warehouse rule.warehouseId,
        availableQuantity := 0, reservedQuantity := 0 }
  else balances

def locationOf (reorderRules : List ReorderRule) (balance : LocationBalance) : Location :=
  let rule := reorderRules.find? fun candidate =>
    candidate.scope = .perWarehouse ∧ candidate.warehouseId = balance.warehouseId
  { balance with
    onHandQuantity := balance.availableQuantity + balance.reservedQuantity
    replenishment := rule.map fun rule =>
      buildReorderRecommendation rule balance.availableQuantity }

/-- One location of the `reduce` of the totals. -/
def addTotals (total : Totals) (location : Location) : Totals :=
  { availableQuantity := total.availableQuantity + location.availableQuantity
    reservedQuantity := total.reservedQuantity + location.reservedQuantity
    onHandQuantity := total.onHandQuantity + location.onHandQuantity }

/-- The balances after the three loops. -/
def balancesOf (scan : Scan) (db : ReportDB) (tenantId inventoryItemId : Id) :
    OrderedMap (Option Id) LocationBalance :=
  let stocked := (scan.stocks (db.stockRows tenantId inventoryItemId)).foldl (putStock db) .empty
  let reserved :=
    (scan.movements (db.reservations tenantId inventoryItemId)).foldl (addReservation db) stocked
  (db.rules tenantId inventoryItemId).foldl (addRule db) reserved

def availability (scan : Scan) (db : ReportDB) (tenantId inventoryItemId : Id) :
    Except Failure Availability :=
  match db.findItem tenantId inventoryItemId with
  | none => .error .inventoryItemNotFound
  | some item =>
      let reorderRules := db.rules tenantId inventoryItemId
      let locations :=
        (balancesOf scan db tenantId inventoryItemId).values.map (locationOf reorderRules)
      let totals := locations.foldl addTotals ⟨0, 0, 0⟩
      let tenantTotalRule := reorderRules.find? fun rule => rule.scope = .tenantItemTotal
      .ok
        { item, balances := locations, totals
          tenantTotalReplenishment := tenantTotalRule.map fun rule =>
            buildReorderRecommendation rule totals.availableQuantity
          reorderRules }

/-- The quantity that the report of the balances has for a location. -/
def StockBalances.quantityAt (report : StockBalances) (warehouseId : Option Id) : ℚ :=
  ((report.balances.find? fun balance => balance.warehouseId = warehouseId).map
    StockBalance.quantity).getD 0

/-- The two reports tell the same story. -/
structure SameStory (db : ReportDB) (tenantId inventoryItemId : Id) (report : Availability)
    (balances : StockBalances) : Prop where
  available : ∀ location ∈ report.balances,
    location.availableQuantity = balances.quantityAt location.warehouseId
  listed : ∀ balance ∈ balances.balances,
    ∃ location ∈ report.balances, location.warehouseId = balance.warehouseId
  totalAvailable : report.totals.availableQuantity = balances.totalQuantity
  totalReserved : report.totals.reservedQuantity =
    ((db.reservations tenantId inventoryItemId).map (·.quantity)).sum
  onHand : ∀ location ∈ report.balances,
    location.onHandQuantity = location.availableQuantity + location.reservedQuantity
  totalOnHand : report.totals.onHandQuantity =
    report.totals.availableQuantity + report.totals.reservedQuantity

/-- The stock rows of an item without a warehouse, in the order the query of
`availability` returns them. -/
def rowsWithoutWarehouse (scan : Scan) (db : ReportDB) (tenantId inventoryItemId : Id) :
    List StockRow :=
  (scan.stocks (db.stockRows tenantId inventoryItemId)).filter fun row => row.warehouseId = none

/-! ## The loops -/

variable {db : ReportDB} {scan : Scan} {stamp : Stamp} {tenantId inventoryItemId : Id}
  {w : Option Id}

/-- What the rows of a location add up to. -/
def stockSum (rows : List StockRow) (w : Option Id) : ℚ :=
  ((rows.filter fun row => row.warehouseId = w).map (·.quantity)).sum

theorem stockSum_cons (row : StockRow) (rows : List StockRow) (w : Option Id) :
    stockSum (row :: rows) w = (if row.warehouseId = w then row.quantity else 0) +
    stockSum rows w := by
  unfold stockSum
  rw [List.filter_cons]
  by_cases hw : row.warehouseId = w
  · rw [if_pos (decide_eq_true hw), if_pos hw, List.map_cons, List.sum_cons]
  · rw [if_neg (by simpa using hw), if_neg hw, zero_add]

theorem stockSum_perm {rows rows' : List StockRow} (h : rows.Perm rows') (w : Option Id) :
    stockSum rows w = stockSum rows' w :=
  ((h.filter _).map _).sum_eq

section Balances

variable {m : OrderedMap (Option Id) StockBalance}

def balanceAt (m : OrderedMap (Option Id) StockBalance) (w : Option Id) : ℚ :=
  ((m.get w).map StockBalance.quantity).getD 0

/-- Every balance names the location it stands for. -/
def BalancesLocated (m : OrderedMap (Option Id) StockBalance) : Prop :=
  ∀ w balance, m.get w = some balance → balance.warehouseId = w

variable (db) in
theorem addBalance_get (stock : StockRow) :
    ∃ balance : StockBalance, addBalance db m stock = m.set stock.warehouseId balance ∧
      balance.quantity = balanceAt m stock.warehouseId + stock.quantity ∧
      (BalancesLocated m → balance.warehouseId = stock.warehouseId) := by
  unfold addBalance balanceAt
  cases hget : m.get stock.warehouseId with
  | some current => exact ⟨_, rfl, rfl, fun h => h stock.warehouseId current hget⟩
  | none => exact ⟨_, rfl, (zero_add _).symm, fun _ => rfl⟩

variable (db) in
theorem foldl_addBalance (rows : List StockRow) (hm : BalancesLocated m) :
    BalancesLocated (rows.foldl (addBalance db) m) ∧
      (∀ w, balanceAt (rows.foldl (addBalance db) m) w = balanceAt m w + stockSum rows w) ∧
      ∀ w, w ∈ (rows.foldl (addBalance db) m).keys ↔ w ∈ rows.map (·.warehouseId) ∨ w ∈ m.keys := by
  induction rows generalizing m with
  | nil => exact ⟨hm, fun w => (add_zero _).symm, fun w => by simp⟩
  | cons row rows ih =>
      obtain ⟨balance, hset, hquantity, hlocated⟩ := addBalance_get db (m := m) row
      have hm' : BalancesLocated (addBalance db m row) := by
        intro w' b hb
        rw [hset, OrderedMap.get_set] at hb
        split at hb
        · rename_i hw
          cases hb
          rw [hw]
          exact hlocated hm
        · exact hm w' b hb
      obtain ⟨hfold, hsum, hkeys⟩ := ih hm'
      refine ⟨hfold, fun w => ?_, fun w => ?_⟩
      · have hstep : balanceAt (addBalance db m row) w =
            balanceAt m w + if row.warehouseId = w then row.quantity else 0 := by
          rw [hset]
          unfold balanceAt
          rw [OrderedMap.get_set]
          by_cases hw : w = row.warehouseId
          · rw [if_pos hw, if_pos hw.symm, hw]
            exact hquantity
          · rw [if_neg hw, if_neg (fun h => hw h.symm), add_zero]
        rw [List.foldl_cons, hsum, hstep, stockSum_cons, add_assoc]
      · rw [List.foldl_cons, hkeys, hset, OrderedMap.mem_keys_set, List.map_cons, List.mem_cons]
        tauto

end Balances

section Locations

variable {m : OrderedMap (Option Id) LocationBalance}

def availableAt (m : OrderedMap (Option Id) LocationBalance) (w : Option Id) : ℚ :=
  ((m.get w).map LocationBalance.availableQuantity).getD 0

def reservedAt (m : OrderedMap (Option Id) LocationBalance) (w : Option Id) : ℚ :=
  ((m.get w).map LocationBalance.reservedQuantity).getD 0

/-- Every location balance names the location it stands for. -/
def Located (m : OrderedMap (Option Id) LocationBalance) : Prop :=
  ∀ w balance, m.get w = some balance → balance.warehouseId = w

theorem Located.set (hm : Located m) {k : Option Id} {balance : LocationBalance}
    (hbalance : balance.warehouseId = k) : Located (m.set k balance) := by
  intro w b hb
  rw [OrderedMap.get_set] at hb
  split at hb
  · rename_i hw
    cases hb
    rw [hw]
    exact hbalance
  · exact hm w b hb

theorem availableAt_set (k : Option Id) (balance : LocationBalance) (w : Option Id) :
    availableAt (m.set k balance) w =
      if w = k then balance.availableQuantity else availableAt m w := by
  unfold availableAt
  rw [OrderedMap.get_set]
  split <;> rfl

theorem reservedAt_set (k : Option Id) (balance : LocationBalance) (w : Option Id) :
    reservedAt (m.set k balance) w =
      if w = k then balance.reservedQuantity else reservedAt m w := by
  unfold reservedAt
  rw [OrderedMap.get_set]
  split <;> rfl

variable (db) in
/-- Of the rows of a location the last is kept. -/
theorem foldl_putStock (rows : List StockRow) (hm : Located m) (hnone : ∀ w, reservedAt m w = 0) :
    Located (rows.foldl (putStock db) m) ∧
      (∀ w, availableAt (rows.foldl (putStock db) m) w =
        ((rows.filter fun row => row.warehouseId = w).getLast?.map (·.quantity)).getD
          (availableAt m w)) ∧
      (∀ w, reservedAt (rows.foldl (putStock db) m) w = 0) ∧
      ∀ w, w ∈ (rows.foldl (putStock db) m).keys ↔ w ∈ rows.map (·.warehouseId) ∨ w ∈ m.keys := by
  induction rows generalizing m with
  | nil => exact ⟨hm, fun w => rfl, hnone, fun w => by simp⟩
  | cons row rows ih =>
      have hreserved (w : Option Id) : reservedAt (putStock db m row) w = 0 := by
        unfold putStock
        rw [reservedAt_set]
        split
        · rfl
        · exact hnone w
      have hm' : Located (putStock db m row) := hm.set rfl
      obtain ⟨hfold, havailable, hzero, hkeys⟩ := ih hm' hreserved
      refine ⟨hfold, fun w => ?_, hzero, fun w => ?_⟩
      · have hstep : availableAt (putStock db m row) w =
            if w = row.warehouseId then row.quantity else availableAt m w :=
          availableAt_set row.warehouseId _ w
        rw [List.foldl_cons, havailable, hstep, List.filter_cons]
        by_cases hw : row.warehouseId = w
        · rw [if_pos hw.symm, if_pos (decide_eq_true hw), List.getLast?_cons]
          cases (rows.filter fun row => row.warehouseId = w).getLast? with
          | none => rfl
          | some last => rfl
        · rw [if_neg (fun h => hw h.symm), if_neg (by simpa using hw)]
      · rw [List.foldl_cons, hkeys]
        unfold putStock
        rw [OrderedMap.mem_keys_set, List.map_cons, List.mem_cons]
        tauto

/-- What the reservations of a location add up to. -/
def reservationSum (rows : List InventoryMovement) (w : Option Id) : ℚ :=
  ((rows.filter fun row => row.warehouseId = w).map (·.quantity)).sum

variable (db) in
theorem foldl_addReservation (rows : List InventoryMovement) (hm : Located m) :
    Located (rows.foldl (addReservation db) m) ∧
      (∀ w, availableAt (rows.foldl (addReservation db) m) w = availableAt m w) ∧
      (∀ w, reservedAt (rows.foldl (addReservation db) m) w =
        reservedAt m w + reservationSum rows w) ∧
      ∀ w, w ∈ (rows.foldl (addReservation db) m).keys ↔
        w ∈ rows.map (·.warehouseId) ∨ w ∈ m.keys := by
  induction rows generalizing m with
  | nil => exact ⟨hm, fun w => rfl, fun w => (add_zero _).symm, fun w => by simp⟩
  | cons row rows ih =>
      obtain ⟨balance, hset, havailable, hreserved, hlocated⟩ : ∃ balance : LocationBalance,
          addReservation db m row = m.set row.warehouseId balance ∧
          balance.availableQuantity = availableAt m row.warehouseId ∧
          balance.reservedQuantity = reservedAt m row.warehouseId + row.quantity ∧
          balance.warehouseId = row.warehouseId := by
        unfold addReservation availableAt reservedAt
        cases hget : m.get row.warehouseId with
        | some current =>
            have hcurrent := hm row.warehouseId current hget
            exact ⟨_, rfl, rfl, rfl, hcurrent⟩
        | none => exact ⟨_, rfl, rfl, rfl, rfl⟩
      have hm' : Located (addReservation db m row) := hset ▸ hm.set hlocated
      obtain ⟨hfold, hsame, hsum, hkeys⟩ := ih hm'
      refine ⟨hfold, fun w => ?_, fun w => ?_, fun w => ?_⟩
      · rw [List.foldl_cons, hsame, hset, availableAt_set]
        split
        · rename_i hw
          rw [hw, havailable]
        · rfl
      · rw [List.foldl_cons, hsum, hset, reservedAt_set]
        unfold reservationSum
        rw [List.filter_cons]
        by_cases hw : row.warehouseId = w
        · rw [if_pos hw.symm, if_pos (decide_eq_true hw), hreserved, hw, List.map_cons,
            List.sum_cons, add_assoc]
        · rw [if_neg (fun h => hw h.symm), if_neg (by simpa using hw)]
      · rw [List.foldl_cons, hkeys, hset, OrderedMap.mem_keys_set, List.map_cons, List.mem_cons]
        tauto

variable (db) in
/-- The rules add locations without stock and without reservations. -/
theorem foldl_addRule (rules : List ReorderRule) (hm : Located m) :
    Located (rules.foldl (addRule db) m) ∧
      (∀ w, availableAt (rules.foldl (addRule db) m) w = availableAt m w) ∧
      (∀ w, reservedAt (rules.foldl (addRule db) m) w = reservedAt m w) ∧
      ∀ w, w ∈ m.keys → w ∈ (rules.foldl (addRule db) m).keys := by
  induction rules generalizing m with
  | nil => exact ⟨hm, fun w => rfl, fun w => rfl, fun w h => h⟩
  | cons rule rules ih =>
      have hstep : Located (addRule db m rule) ∧
          (∀ w, availableAt (addRule db m rule) w = availableAt m w) ∧
          (∀ w, reservedAt (addRule db m rule) w = reservedAt m w) ∧
          ∀ w, w ∈ m.keys → w ∈ (addRule db m rule).keys := by
        unfold addRule
        split
        · rename_i hnew
          have hget : m.get rule.warehouseId = none := by
            refine OrderedMap.get_eq_none_iff.mpr fun hmem => hnew.2.2 ?_
            exact OrderedMap.has_iff.mpr hmem
          refine ⟨hm.set rfl, fun w => ?_, fun w => ?_, fun w hw =>
            OrderedMap.mem_keys_set.mpr (.inr hw)⟩
          · rw [availableAt_set]
            split
            · rename_i hw
              unfold availableAt
              rw [hw, hget]
              rfl
            · rfl
          · rw [reservedAt_set]
            split
            · rename_i hw
              unfold reservedAt
              rw [hw, hget]
              rfl
            · rfl
        · exact ⟨hm, fun w => rfl, fun w => rfl, fun w hw => hw⟩
      obtain ⟨hlocated, havailable, hreserved, hkeys⟩ := hstep
      obtain ⟨hfold, havailable', hreserved', hkeys'⟩ := ih hlocated
      exact ⟨hfold, fun w => (havailable' w).trans (havailable w),
        fun w => (hreserved' w).trans (hreserved w), fun w hw => hkeys' w (hkeys w hw)⟩

/-- The balances of the report, location by location. -/
theorem balancesOf_spec (scan : Scan) (db : ReportDB) (tenantId inventoryItemId : Id) :
    let rows := scan.stocks (db.stockRows tenantId inventoryItemId)
    let m := balancesOf scan db tenantId inventoryItemId
    Located m ∧
      (∀ w, availableAt m w =
        ((rows.filter fun row => row.warehouseId = w).getLast?.map (·.quantity)).getD 0) ∧
      (∀ w, reservedAt m w = reservationSum (db.reservations tenantId inventoryItemId) w) ∧
      (∀ row ∈ rows, row.warehouseId ∈ m.keys) ∧
      ∀ row ∈ db.reservations tenantId inventoryItemId, row.warehouseId ∈ m.keys := by
  intro rows m
  have hempty : Located OrderedMap.empty := fun w balance h => by cases h
  obtain ⟨hstocked, hlast, hzero, hstockKeys⟩ :=
    foldl_putStock db rows hempty fun w => rfl
  obtain ⟨hreserved, hsame, hsum, hreservedKeys⟩ :=
    foldl_addReservation db (scan.movements (db.reservations tenantId inventoryItemId))
      hstocked
  obtain ⟨hruled, hsame', hsum', hkeys⟩ :=
    foldl_addRule db (db.rules tenantId inventoryItemId) hreserved
  have hperm := scan.movements_perm (db.reservations tenantId inventoryItemId)
  refine ⟨hruled, fun w => ?_, fun w => ?_, fun row hrow => ?_, fun row hrow => ?_⟩
  · show availableAt (balancesOf scan db tenantId inventoryItemId) w = _
    unfold balancesOf
    rw [hsame', hsame, hlast]
    rfl
  · show reservedAt (balancesOf scan db tenantId inventoryItemId) w = _
    unfold balancesOf
    rw [hsum', hsum, hzero, zero_add]
    exact ((hperm.filter _).map _).sum_eq
  · exact hkeys _ ((hreservedKeys _).mpr (.inr ((hstockKeys _).mpr
      (.inl (List.mem_map_of_mem hrow)))))
  · exact hkeys _ ((hreservedKeys _).mpr (.inl (List.mem_map_of_mem (hperm.mem_iff.mpr hrow))))

end Locations

/-! ## The reports -/

theorem foldl_addTotals (locations : List Location) (total : Totals) :
    locations.foldl addTotals total =
      { availableQuantity :=
          total.availableQuantity + (locations.map (·.availableQuantity)).sum
        reservedQuantity := total.reservedQuantity + (locations.map (·.reservedQuantity)).sum
        onHandQuantity := total.onHandQuantity + (locations.map (·.onHandQuantity)).sum } := by
  induction locations generalizing total with
  | nil => simp
  | cons location locations ih =>
      rw [List.foldl_cons, ih]
      simp only [addTotals, List.map_cons, List.sum_cons, add_assoc]

/-- All rows of a location but the last. -/
theorem stockSum_eq (rows : List StockRow) (w : Option Id) :
    stockSum rows w =
      (((rows.filter fun row => row.warehouseId = w).dropLast).map (·.quantity)).sum +
        ((rows.filter fun row => row.warehouseId = w).getLast?.map (·.quantity)).getD 0 := by
  unfold stockSum
  rcases List.eq_nil_or_concat (rows.filter fun row => row.warehouseId = w) with
    hnil | ⟨front, last, hconcat⟩
  · rw [hnil]
    simp
  · rw [hconcat]
    simp

/-- The rows of a warehouse are at most one. -/
theorem dropLast_warehouse (scan : Scan) (db : ReportDB) (tenantId inventoryItemId : Id)
    (hw : w ≠ none) :
    ((scan.stocks (db.stockRows tenantId inventoryItemId)).filter
      fun row => row.warehouseId = w).dropLast = [] := by
  have hkey : (scan.stocks (db.stockRows tenantId inventoryItemId)).Pairwise fun r s =>
      ¬ (r.inventoryItemId = s.inventoryItemId ∧ r.warehouseId = s.warehouseId ∧
        r.warehouseId ≠ none) := by
    refine ((scan.stocks_perm _).pairwise_iff fun {r s} h hsr => h ?_).mpr
      (db.stockKey.sublist List.filter_sublist)
    exact ⟨hsr.1.symm, hsr.2.1.symm, hsr.2.1 ▸ hsr.2.2⟩
  have hitem (row : StockRow)
      (hrow : row ∈ scan.stocks (db.stockRows tenantId inventoryItemId)) :
      row.inventoryItemId = inventoryItemId := by
    have hmem := (scan.stocks_perm _).mem_iff.mp hrow
    exact (of_decide_eq_true (List.mem_filter.mp hmem).2).1
  have hpair := hkey.filter fun row => row.warehouseId = w
  have hmem (row : StockRow) (hrow : row ∈ (scan.stocks (db.stockRows tenantId
      inventoryItemId)).filter fun row => row.warehouseId = w) :
      row.inventoryItemId = inventoryItemId ∧ row.warehouseId = w :=
    ⟨hitem row (List.mem_filter.mp hrow).1, of_decide_eq_true (List.mem_filter.mp hrow).2⟩
  generalize (scan.stocks (db.stockRows tenantId inventoryItemId)).filter
    (fun row => row.warehouseId = w) = rows at hpair hmem
  rcases rows with _ | ⟨r, _ | ⟨s, rest⟩⟩
  · rfl
  · rfl
  · have hr := hmem r List.mem_cons_self
    have hs := hmem s (List.mem_cons_of_mem r List.mem_cons_self)
    refine absurd ?_ ((List.pairwise_cons.mp hpair).1 s List.mem_cons_self)
    exact ⟨hr.1.trans hs.1.symm, hr.2.trans hs.2.symm, hr.2 ▸ hw⟩

/-- The report of the balances names each location once, with the sum of its rows. -/
theorem stockBalances_spec {report : StockBalances}
    (h : stockBalances stamp db tenantId inventoryItemId = .ok report) :
    (∀ w, report.quantityAt w = stockSum (db.stockRows tenantId inventoryItemId) w) ∧
      (∀ balance ∈ report.balances,
        ∃ row ∈ db.stockRows tenantId inventoryItemId, row.warehouseId = balance.warehouseId) ∧
      report.totalQuantity = ((db.stockRows tenantId inventoryItemId).map (·.quantity)).sum := by
  unfold stockBalances at h
  split at h
  · cases h
  cases h
  have hperm := orderBy_perm (stockOrder stamp) (db.stockRows tenantId inventoryItemId)
  obtain ⟨hlocated, hsum, hkeys⟩ := foldl_addBalance db
    (orderBy (stockOrder stamp) (db.stockRows tenantId inventoryItemId))
    (m := OrderedMap.empty) fun w balance h => by cases h
  generalize (orderBy (stockOrder stamp) (db.stockRows tenantId inventoryItemId)).foldl
    (addBalance db) .empty = m at hlocated hsum hkeys
  have hat (w : Option Id) : balanceAt m w = stockSum
      (db.stockRows tenantId inventoryItemId) w := by
    rw [hsum, stockSum_perm hperm]
    exact zero_add _
  refine ⟨fun w => ?_, fun balance hbalance => ?_, ?_⟩
  · rw [← hat]
    show ((m.values.find? fun balance => balance.warehouseId = w).map
      StockBalance.quantity).getD 0 =
      ((m.get w).map StockBalance.quantity).getD 0
    refine congrArg (fun b : Option StockBalance => (b.map StockBalance.quantity).getD 0) ?_
    cases hget : m.get w with
    | some balance =>
        have hmem := OrderedMap.get_eq_some_iff.mp hget
        have hsome : (m.values.find? fun b => b.warehouseId = w).isSome :=
          List.find?_isSome.mpr ⟨balance, List.mem_map.mpr ⟨_, hmem, rfl⟩,
            decide_eq_true (hlocated w balance hget)⟩
        obtain ⟨found, hfound⟩ := Option.isSome_iff_exists.mp hsome
        obtain ⟨e, he, rfl⟩ := List.mem_map.mp (List.mem_of_find?_eq_some hfound)
        have hew : e.2.warehouseId = w := by simpa using List.find?_some hfound
        have heget := OrderedMap.get_eq_some_iff.mpr he
        rw [← hlocated e.1 e.2 heget, hew, hget] at heget
        rw [hfound, heget]
    | none =>
        refine List.find?_eq_none.mpr fun balance hbalance hw => ?_
        obtain ⟨e, he, rfl⟩ := List.mem_map.mp hbalance
        have heget := OrderedMap.get_eq_some_iff.mpr he
        have hew : e.2.warehouseId = w := of_decide_eq_true hw
        rw [← hlocated e.1 e.2 heget, hew, hget] at heget
        cases heget
  · obtain ⟨e, he, rfl⟩ := List.mem_map.mp hbalance
    have heget := OrderedMap.get_eq_some_iff.mpr he
    have hkey : e.1 ∈ m.keys := List.mem_map_of_mem he
    rcases (hkeys e.1).mp hkey with hrow | hnone
    · obtain ⟨row, hrow, hw⟩ := List.mem_map.mp hrow
      exact ⟨row, hperm.mem_iff.mp hrow, hw.trans (hlocated e.1 e.2 heget).symm⟩
    · exact absurd hnone List.not_mem_nil
  · show (m.values.map StockBalance.quantity).sum = _
    have hcover : ∀ row ∈ db.stockRows tenantId inventoryItemId, row.warehouseId ∈ m.keys :=
      fun row hrow => (hkeys _).mpr (.inl (List.mem_map_of_mem (hperm.mem_iff.mpr hrow)))
    rw [OrderedMap.map_values, ← sum_by_key (db.stockRows tenantId inventoryItemId)
      (·.warehouseId) (·.quantity) m.nodup hcover]
    exact congrArg List.sum (List.map_congr_left fun w _ => hat w)

/-- What the report of the availability has for a location is its last stock row. -/
theorem availability_spec {report : Availability}
    (h : availability scan db tenantId inventoryItemId = .ok report) :
    let rows := scan.stocks (db.stockRows tenantId inventoryItemId)
    (∀ location ∈ report.balances,
      location.availableQuantity = ((rows.filter fun row => row.warehouseId =
        location.warehouseId).getLast?.map (·.quantity)).getD 0 ∧
      location.onHandQuantity = location.availableQuantity + location.reservedQuantity) ∧
    (∀ row ∈ rows, ∃ location ∈ report.balances, location.warehouseId = row.warehouseId) ∧
    ((∀ w, ((rows.filter fun row => row.warehouseId = w).dropLast.map (·.quantity)).sum = 0) →
      report.totals.availableQuantity = (rows.map (·.quantity)).sum) ∧
    report.totals.reservedQuantity =
      ((db.reservations tenantId inventoryItemId).map (·.quantity)).sum ∧
    report.totals.onHandQuantity =
      report.totals.availableQuantity + report.totals.reservedQuantity := by
  intro rows
  unfold availability at h
  split at h
  · cases h
  cases h
  obtain ⟨hlocated, hlast, hreserved, hstockKeys, hreservedKeys⟩ :=
    balancesOf_spec scan db tenantId inventoryItemId
  generalize balancesOf scan db tenantId inventoryItemId = m at *
  have hentry (e : Option Id × LocationBalance) (he : e ∈ m.entries) :
      e.2.warehouseId = e.1 ∧ e.2.availableQuantity = availableAt m e.1 := by
    have hget := OrderedMap.get_eq_some_iff.mpr he
    refine ⟨hlocated e.1 e.2 hget, ?_⟩
    unfold availableAt
    rw [hget]
    rfl
  refine ⟨fun location hlocation => ?_, fun row hrow => ?_, fun hrest => ?_, ?_, ?_⟩
  · obtain ⟨balance, hbalance, rfl⟩ := List.mem_map.mp hlocation
    obtain ⟨e, he, rfl⟩ := List.mem_map.mp hbalance
    obtain ⟨hw, havailable⟩ := hentry e he
    refine ⟨?_, rfl⟩
    show e.2.availableQuantity = ((rows.filter fun row => row.warehouseId =
      e.2.warehouseId).getLast?.map (·.quantity)).getD 0
    rw [havailable, hlast, hw]
  · obtain ⟨e, he, hw⟩ := List.mem_map.mp (hstockKeys row hrow)
    exact ⟨_, List.mem_map_of_mem (List.mem_map_of_mem he), (hentry e he).1.trans hw⟩
  · show (List.foldl addTotals ⟨0, 0, 0⟩ _).availableQuantity = _
    have hvalues : (m.values.map (locationOf (db.rules tenantId inventoryItemId))).map
        (·.availableQuantity) = m.values.map LocationBalance.availableQuantity := List.map_map
    rw [foldl_addTotals, zero_add, hvalues, OrderedMap.map_values,
      ← sum_by_key rows (·.warehouseId) (·.quantity) m.nodup hstockKeys]
    refine congrArg List.sum (List.map_congr_left fun w _ => ?_)
    show availableAt m w = stockSum rows w
    rw [stockSum_eq, hrest, hlast, zero_add]
  · show (List.foldl addTotals ⟨0, 0, 0⟩ _).reservedQuantity = _
    have hvalues : (m.values.map (locationOf (db.rules tenantId inventoryItemId))).map
        (·.reservedQuantity) = m.values.map LocationBalance.reservedQuantity := List.map_map
    rw [foldl_addTotals]
    show 0 + _ = _
    rw [zero_add, hvalues, OrderedMap.map_values,
      ← sum_by_key (db.reservations tenantId inventoryItemId)
      (·.warehouseId) (·.quantity) m.nodup hreservedKeys]
    exact congrArg List.sum (List.map_congr_left fun w _ => hreserved w)
  · show (List.foldl addTotals ⟨0, 0, 0⟩ _).onHandQuantity =
      (List.foldl addTotals ⟨0, 0, 0⟩ _).availableQuantity +
        (List.foldl addTotals ⟨0, 0, 0⟩ _).reservedQuantity
    rw [foldl_addTotals]
    simp only [zero_add, List.map_map]
    exact List.sum_map_add

/-- The two reports fail together, for an item that is not there; otherwise they tell the
same story if and only if all rows without a warehouse but the last add up to nothing. -/
theorem availability_agrees_iff (stamp : Stamp) (scan : Scan) (db : ReportDB)
    (tenantId inventoryItemId : Id) :
    (availability scan db tenantId inventoryItemId = .error .inventoryItemNotFound ∧
      stockBalances stamp db tenantId inventoryItemId = .error .inventoryItemNotFound) ∨
    ∃ report balances, availability scan db tenantId inventoryItemId = .ok report ∧
      stockBalances stamp db tenantId inventoryItemId = .ok balances ∧
      (SameStory db tenantId inventoryItemId report balances ↔
        ((rowsWithoutWarehouse scan db tenantId inventoryItemId).dropLast.map
          (·.quantity)).sum = 0) := by
  cases hitem : db.findItem tenantId inventoryItemId with
  | none =>
      refine .inl ⟨?_, ?_⟩
      · unfold availability
        rw [hitem]
      · unfold stockBalances
        rw [hitem]
  | some item =>
      obtain ⟨balances, hbalances⟩ :
          ∃ balances, stockBalances stamp db tenantId inventoryItemId = .ok balances := by
        unfold stockBalances
        rw [hitem]
        exact ⟨_, rfl⟩
      obtain ⟨report, hreport⟩ :
          ∃ report, availability scan db tenantId inventoryItemId = .ok report := by
        unfold availability
        rw [hitem]
        exact ⟨_, rfl⟩
      refine .inr ⟨report, balances, hreport, hbalances, ?_⟩
      obtain ⟨hquantity, hrows, htotal⟩ := stockBalances_spec hbalances
      obtain ⟨hlocation, hlisted, havailable, hreserved, honHand⟩ := availability_spec hreport
      have hperm := scan.stocks_perm (db.stockRows tenantId inventoryItemId)
      have hsplit (w : Option Id) : stockSum (db.stockRows tenantId inventoryItemId) w =
          (((scan.stocks (db.stockRows tenantId inventoryItemId)).filter
            fun row => row.warehouseId = w).dropLast.map (·.quantity)).sum +
          (((scan.stocks (db.stockRows tenantId inventoryItemId)).filter
            fun row => row.warehouseId = w).getLast?.map (·.quantity)).getD 0 := by
        rw [← stockSum_eq, stockSum_perm hperm]
      constructor
      · intro h
        show (((scan.stocks (db.stockRows tenantId inventoryItemId)).filter
            fun row => row.warehouseId = none).dropLast.map (·.quantity)).sum = 0
        rcases List.eq_nil_or_concat ((scan.stocks (db.stockRows tenantId
          inventoryItemId)).filter fun row => row.warehouseId = none) with hnil
            | ⟨front, last, hlast⟩
        · rw [hnil]
          rfl
        · -- the location without a warehouse is listed
          have hmem : last ∈ (scan.stocks (db.stockRows tenantId inventoryItemId)).filter
              fun row => row.warehouseId = none := by
            rw [hlast]
            simp
          obtain ⟨location, hmemLocation, hw⟩ := hlisted last (List.mem_filter.mp hmem).1
          rw [of_decide_eq_true (List.mem_filter.mp hmem).2] at hw
          have hsame := h.available location hmemLocation
          rw [(hlocation location hmemLocation).1, hquantity, hw, hsplit none] at hsame
          linarith
      · intro hnone
        have hzero (w : Option Id) : (((scan.stocks (db.stockRows tenantId
            inventoryItemId)).filter fun row => row.warehouseId = w).dropLast.map
              (·.quantity)).sum = 0 := by
          by_cases hw : w = none
          · rw [hw]
            exact hnone
          · rw [dropLast_warehouse scan db tenantId inventoryItemId hw]
            rfl
        refine ⟨fun location hmem => ?_, fun balance hmem => ?_, ?_, hreserved,
          fun location hmem => (hlocation location hmem).2, honHand⟩
        · rw [(hlocation location hmem).1, hquantity, hsplit, hzero, zero_add]
        · obtain ⟨row, hrow, hw⟩ := hrows balance hmem
          obtain ⟨location, hmemLocation, hw'⟩ := hlisted row (hperm.mem_iff.mpr hrow)
          exact ⟨location, hmemLocation, hw'.trans hw⟩
        · rw [havailable hzero, htotal]
          exact (hperm.map _).sum_eq

/-- Queries that return the rows in the order of the table. -/
def Scan.inOrder : Scan where
  stocks := id
  movements := id
  stocks_perm := List.Perm.refl
  movements_perm := List.Perm.refl

/-- Three units and then five, both without a warehouse. -/
def looseStock : ReportDB where
  items := [⟨1, 1, "beans", none, none, none, none, none⟩]
  warehouses := []
  stocks := [⟨⟨10, none, 1, 3, none⟩, 0⟩, ⟨⟨11, none, 1, 5, none⟩, 0⟩]
  movements := []
  reorderRules := []
  stockKey := List.pairwise_pair.mpr fun h => h.2.2 rfl

/-- The balances have eight units, of which five are available. -/
theorem availability_overwrites :
    ∃ report balances, availability .inOrder looseStock 1 1 = .ok report ∧
      stockBalances .sequential looseStock 1 1 = .ok balances ∧
      report.totals.availableQuantity = 5 ∧ balances.totalQuantity = 8 ∧
      ¬ SameStory looseStock 1 1 report balances := by
  have havailable : ((availability .inOrder looseStock 1 1).map fun report =>
      report.totals.availableQuantity) = .ok 5 := by decide +kernel
  have htotal : ((stockBalances .sequential looseStock 1 1).map fun balances =>
      balances.totalQuantity) = .ok 8 := by decide +kernel
  cases hreport : availability .inOrder looseStock 1 1 with
  | error e =>
      rw [hreport] at havailable
      cases havailable
  | ok report =>
      cases hbalances : stockBalances .sequential looseStock 1 1 with
      | error e =>
          rw [hbalances] at htotal
          cases htotal
      | ok balances =>
          rw [hreport] at havailable
          rw [hbalances] at htotal
          have hfive : report.totals.availableQuantity = 5 := Except.ok.inj havailable
          have height : balances.totalQuantity = 8 := Except.ok.inj htotal
          refine ⟨report, balances, rfl, rfl, hfive, height, fun h => ?_⟩
          have hsame := h.totalAvailable
          rw [hfive, height] at hsame
          exact absurd hsame (by decide)

end Inventory
end ERP
