import Mathlib.Algebra.BigOperators.Ring.Finset
import ERP.Lib.Rows
import ERP.Orders.PurchaseOrders

/-!
# The lines of a purchase order

`PurchaseOrderService.create` builds an order through its aggregate; `update`
replaces the lines of an order that is not approved yet, with checks of its own.
-/

namespace ERP
namespace Orders

open Inventory Lib

/-- A row of `PurchaseOrderItem` with its subtotal. -/
structure OrderLine extends PurchaseOrderItem where
  subtotal : Int
  deriving DecidableEq, Repr

structure OrderRow where
  id : Id
  tenantId : Id
  poNumber : String
  supplierId : Id
  warehouseId : Option Id
  status : PurchaseOrderStatus
  totalAmount : Int
  lines : List OrderLine
  deriving DecidableEq, Repr

/-- The order without its number and its subtotals. -/
def OrderRow.toOrder (row : OrderRow) : PurchaseOrder :=
  { id := row.id, tenantId := row.tenantId, supplierId := row.supplierId,
    warehouseId := row.warehouseId, status := row.status, totalAmount := row.totalAmount,
    items := row.lines.map OrderLine.toPurchaseOrderItem }

/-- The orders, the tables their requests refer to, where no two items have one id,
the base currencies of the tenants, and the next id of a line. -/
structure OrderBook where
  orders : Rows OrderRow OrderRow.id
  catalogue : DB
  itemIds : (catalogue.items.map InventoryItem.id).Nodup
  currencyCode : Id → Option String
  nextLine : Id

def OrderBook.db (book : OrderBook) : DB :=
  { book.catalogue with purchaseOrders := book.orders.toList.map OrderRow.toOrder }

structure CreatePurchaseOrderItemDto where
  inventoryItemId : Id
  quantity : ℚ
  unitPrice : ℚ
  deriving DecidableEq, Repr

structure CreatePurchaseOrderDto where
  supplierId : Id
  warehouseId : Option Id
  items : List CreatePurchaseOrderItemDto
  deriving DecidableEq, Repr

/-- What `create` and the request validation throw besides the failures of `update`. -/
inductive OrderFailure where
  | request
  | supplierNotFound
  | supplierInactive
  | warehouseNotFound
  | warehouseInactive
  | itemsNotFound
  | noItems
  | duplicateItems
  | quantityNotWhole
  | unitPriceNotWhole
  | currencyMissing
  | numberTaken
  | update (failure : Failure)
  deriving DecidableEq, Repr

/-- The message of the exception; the request validation writes its own, and a number
that is taken violates the unique column. -/
def OrderFailure.message : OrderFailure → String
  | .request => "Bad Request"
  | .supplierNotFound => "Supplier not found"
  | .supplierInactive => "Inactive suppliers cannot be used for new purchase orders"
  | .warehouseNotFound => "Warehouse not found"
  | .warehouseInactive => "Inactive warehouses cannot be assigned to new purchase orders"
  | .itemsNotFound => "Some inventory items not found"
  | .noItems => "Purchase order must include at least one item"
  | .duplicateItems => "Purchase order contains duplicate inventory items"
  | .quantityNotWhole => "Purchase order item quantity must be a positive integer"
  | .unitPriceNotWhole => "Purchase order item unit price must be a non-negative integer"
  | .currencyMissing =>
      "Configure the tenant base currency before creating financial transactions"
  | .numberTaken => "Unique constraint failed"
  | .update failure => failure.message

/-- `Number.isInteger`. -/
def isInteger (value : ℚ) : Bool := value.den = 1

/-- What an `Int` column makes of a value it takes. -/
def storeInt (value : ℚ) : Except OrderFailure Int :=
  if -2147483648 ≤ toInt value ∧ toInt value ≤ 2147483647 then .ok (toInt value)
  else .error (.update .integerNotStorable)

/-- The checks of the supplier and the warehouse of a new order. -/
def checkNewOrder (db : DB) (tenantId : Id) (dto : CreatePurchaseOrderDto) :
    Except OrderFailure Unit := do
  match db.suppliers.find? fun row => row.id = dto.supplierId with
  | none => throw .supplierNotFound
  | some supplier =>
      if supplier.tenantId ≠ tenantId then throw .supplierNotFound
      if ¬ supplier.isActive then throw .supplierInactive
  match dto.warehouseId with
  | none => pure ()
  | some id =>
      match db.warehouses.find? fun row => row.id = id ∧ row.tenantId = tenantId with
      | none => throw .warehouseNotFound
      | some warehouse => if ¬ warehouse.isActive then throw .warehouseInactive

/-- The checks of one line after the other. -/
def checkLines : List CreatePurchaseOrderItemDto → Except OrderFailure Unit
  | [] => .ok ()
  | item :: rest =>
      if ¬ (isInteger item.quantity ∧ 0 < item.quantity) then .error .quantityNotWhole
      else if ¬ (isInteger item.unitPrice ∧ 0 ≤ item.unitPrice) then .error .unitPriceNotWhole
      else checkLines rest

/-- The checks of `PurchaseOrderAggregate.create` that a request can fail; the
subtotals and the received quantities are those the service gives it. -/
def checkAggregate (items : List CreatePurchaseOrderItemDto) : Except OrderFailure Unit :=
  if items = [] then .error .noItems
  else if ¬ (items.map CreatePurchaseOrderItemDto.inventoryItemId).Nodup then
    .error .duplicateItems
  else checkLines items

def CreatePurchaseOrderItemDto.props (item : CreatePurchaseOrderItemDto) :
    PurchaseOrderItemProps :=
  { inventoryItemId := item.inventoryItemId, quantity := item.quantity,
    unitPrice := item.unitPrice, subtotal := Binary64.round (item.quantity * item.unitPrice) }

/-- The rows of the lines, whose ids are handed out from `next` on. -/
def lineRows (next : Id) : List PurchaseOrderItemProps → Except OrderFailure (List OrderLine)
  | [] => .ok []
  | item :: rest => do
      let unitPrice ← storeInt item.unitPrice
      let subtotal ← storeInt item.subtotal
      let lines ← lineRows (next + 1) rest
      pure ({ id := next, inventoryItemId := item.inventoryItemId, quantity := item.quantity,
              unitPrice, receivedQuantity := 0, subtotal } :: lines)

/-- `PO-${year}${month}-${sequence}`, months counted from month 0 of year 0. -/
def poNumber (month count : Nat) : String :=
  "PO-" ++ toString (month / 12) ++ padStart 2 (month % 12 + 1) ++ "-" ++ padStart 5 (count + 1)

namespace OrderBook

/-- `PurchaseOrderService.create`, in the given month, with the id generated for the
row. -/
def create (book : OrderBook) (tenantId : Id) (month : Nat) (newId : Id)
    (dto : CreatePurchaseOrderDto) : Except OrderFailure OrderBook :=
  if ¬ dto.items.all fun item => 1 / 10 ≤ item.quantity ∧ 0 ≤ item.unitPrice then
    .error .request
  else
    match checkNewOrder book.catalogue tenantId dto with
    | .error e => .error e
    | .ok () =>
        if (book.catalogue.items.filter fun row =>
            row.id ∈ dto.items.map CreatePurchaseOrderItemDto.inventoryItemId ∧
              row.tenantId = tenantId).length ≠ dto.items.length then .error .itemsNotFound
        else
          match checkAggregate dto.items, (book.currencyCode tenantId).filter fun code =>
              trim code ≠ "" with
          | .error e, _ => .error e
          | .ok (), none => .error .currencyMissing
          | .ok (), some _ =>
              let number := poNumber month (book.orders.count fun row => row.tenantId = tenantId)
              if ∃ row ∈ book.orders.toList,
                  row.id = newId ∨ row.tenantId = tenantId ∧ row.poNumber = number then
                .error .numberTaken
              else
                let items := dto.items.map CreatePurchaseOrderItemDto.props
                match storeInt (Binary64.sum (items.map PurchaseOrderItemProps.subtotal)),
                    lineRows book.nextLine items with
                | .error e, _ => .error e
                | .ok _, .error e => .error e
                | .ok totalAmount, .ok lines =>
                    .ok { book with
                      orders := book.orders.insert
                        { id := newId, tenantId, poNumber := number, supplierId := dto.supplierId,
                          warehouseId := dto.warehouseId, status := .draft, totalAmount, lines }
                      nextLine := book.nextLine + items.length }

/-- The transaction of `PurchaseOrderRepository.update`. -/
def write (book : OrderBook) (tenantId id : Id) (data : PurchaseOrderData) :
    Except OrderFailure OrderBook :=
  let p (row : OrderRow) : Bool := row.id = id ∧ row.tenantId = tenantId
  match storeInt data.totalAmount, data.items with
  | .error e, _ => .error e
  | .ok totalAmount, none =>
      let edit (row : OrderRow) : OrderRow :=
        { row with supplierId := data.supplierId, warehouseId := data.warehouseId, totalAmount }
      .ok { book with orders := book.orders.updateMany p edit fun _ => rfl }
  | .ok totalAmount, some items =>
      if ¬ ∀ item ∈ items, ∃ row ∈ book.catalogue.items, row.id = item.inventoryItemId then
        .error (.update .foreignKeyViolation)
      else
        match lineRows book.nextLine items with
        | .error e => .error e
        | .ok lines =>
            let edit (row : OrderRow) : OrderRow :=
              { row with supplierId := data.supplierId, warehouseId := data.warehouseId,
                         totalAmount, lines }
            .ok { book with
              orders := book.orders.updateMany p edit fun _ => rfl
              nextLine := book.nextLine + items.length }

/-- `PurchaseOrderService.update`. -/
def update (book : OrderBook) (tenantId id : Id) (dto : UpdatePurchaseOrderDto) :
    Except OrderFailure OrderBook :=
  if ¬ (dto.items.getD []).all fun item =>
      item.quantity.all (fun q => 1 / 10 ≤ q) && item.unitPrice.all fun price => 0 ≤ price then
    .error .request
  else
    match prepareUpdate book.db tenantId id dto with
    | .error e => .error (.update e)
    | .ok data => book.write tenantId id data

end OrderBook

inductive OrderCall where
  | create (tenantId : Id) (month : Nat) (newId : Id) (dto : CreatePurchaseOrderDto)
  | update (tenantId id : Id) (dto : UpdatePurchaseOrderDto)
  deriving DecidableEq, Repr

def OrderCall.exec (book : OrderBook) : OrderCall → Except OrderFailure OrderBook
  | .create tenantId month newId dto => book.create tenantId month newId dto
  | .update tenantId id dto => book.update tenantId id dto

/-- A call that throws leaves the orders as they are. -/
def OrderBook.run (book : OrderBook) (calls : List OrderCall) : OrderBook :=
  calls.foldl (fun book call => (call.exec book).toOption.getD book) book

/-- An order whose lines are of its tenant's items, each once, in whole quantities, and
whose amounts add up. -/
structure WellFormed (catalogue : DB) (row : OrderRow) : Prop where
  lines : row.lines ≠ []
  distinct : (row.lines.map fun line => line.inventoryItemId).Nodup
  owned : ∀ line ∈ row.lines, ∃ item ∈ catalogue.items,
    item.id = line.inventoryItemId ∧ item.tenantId = row.tenantId
  quantity : ∀ line ∈ row.lines, line.quantity.den = 1 ∧ 0 < line.quantity
  unitPrice : ∀ line ∈ row.lines, 0 ≤ line.unitPrice
  subtotal : ∀ line ∈ row.lines, (line.subtotal : ℚ) = line.quantity * line.unitPrice
  total : row.totalAmount = (row.lines.map OrderLine.subtotal).sum

/-- What `create` asks of its lines and `update` does not: distinct items of the tenant, in
whole quantities, at prices whose fractions, which the columns drop, do not add up to one. -/
structure Strict (catalogue : DB) (tenantId : Id) (items : List UpdatePurchaseOrderItemDto) :
    Prop where
  distinct : (items.map UpdatePurchaseOrderItemDto.inventoryItemId).Nodup
  owned : ∀ item ∈ items,
    ∃ row ∈ catalogue.items, some row.id = item.inventoryItemId ∧ row.tenantId = tenantId
  whole : ∀ item ∈ items, (item.quantity.getD 0).den = 1
  fractions : Binary64.sum (items.map fun item =>
      Binary64.round (item.quantity.getD 0 * item.unitPrice.getD 0)) <
    (items.map fun item => item.quantity.getD 0 * (⌊item.unitPrice.getD 0⌋ : ℚ)).sum + 1

variable {book book' : OrderBook} {tenantId id : Id}

@[simp] theorem toInt_intCast (n : Int) : toInt n = n := by
  unfold toInt
  rw [Rat.num_intCast, Rat.den_intCast]
  exact Int.tdiv_one n

theorem toInt_of_nonneg {value : ℚ} (h : 0 ≤ value) : toInt value = ⌊value⌋ := by
  unfold toInt
  rw [Rat.floor_def']
  exact Int.tdiv_eq_ediv_of_nonneg (Rat.num_nonneg.mpr h)

theorem storeInt_ok {value : ℚ} {n : Int} (h : storeInt value = .ok n) :
    n = toInt value ∧ n ≤ 2147483647 := by
  unfold storeInt at h
  split at h
  · rename_i hrange
    cases h
    exact ⟨rfl, hrange.2⟩
  · cases h

/-- The data a row was made from, as far as it was stored. -/
def OrderLine.props (line : OrderLine) : PurchaseOrderItemProps :=
  { inventoryItemId := line.inventoryItemId, quantity := line.quantity,
    unitPrice := line.unitPrice, subtotal := line.subtotal }

def PurchaseOrderItemProps.stored (item : PurchaseOrderItemProps) : PurchaseOrderItemProps :=
  { item with unitPrice := toInt item.unitPrice, subtotal := toInt item.subtotal }

theorem lineRows_ok {next : Id} {items : List PurchaseOrderItemProps} {lines : List OrderLine}
    (h : lineRows next items = .ok lines) :
    lines.map OrderLine.props = items.map PurchaseOrderItemProps.stored ∧
      ∀ item ∈ items, toInt item.subtotal ≤ 2147483647 := by
  induction items generalizing next lines with
  | nil =>
      cases h
      exact ⟨rfl, fun item hitem => absurd hitem List.not_mem_nil⟩
  | cons item rest ih =>
      unfold lineRows at h
      cases hprice : storeInt item.unitPrice with
      | error e =>
          rw [hprice] at h
          cases h
      | ok unitPrice =>
          cases hsubtotal : storeInt item.subtotal with
          | error e =>
              rw [hprice, hsubtotal] at h
              cases h
          | ok subtotal =>
              cases hrest : lineRows (next + 1) rest with
              | error e =>
                  rw [hprice, hsubtotal, hrest] at h
                  cases h
              | ok more =>
                  rw [hprice, hsubtotal, hrest] at h
                  cases h
                  obtain ⟨hprice', -⟩ := storeInt_ok hprice
                  obtain ⟨hsubtotal', hlimit⟩ := storeInt_ok hsubtotal
                  obtain ⟨hmore, hall⟩ := ih hrest
                  rw [List.map_cons, List.map_cons, hmore]
                  refine ⟨?_, fun other hother => ?_⟩
                  · simp only [OrderLine.props, PurchaseOrderItemProps.stored, hprice', hsubtotal']
                  · rcases List.mem_cons.mp hother with rfl | hother
                    · rw [← hsubtotal']
                      exact hlimit
                    · exact hall other hother

/-- What both calls see to: prices that are not negative, and the subtotals of the lines. -/
def Priced (items : List PurchaseOrderItemProps) : Prop :=
  ∀ item ∈ items, 0 < item.quantity ∧ 0 ≤ item.unitPrice ∧
    item.subtotal = Binary64.round (item.quantity * item.unitPrice)

/-- The amounts without the fractions of the prices. -/
def wholeAmount (item : PurchaseOrderItemProps) : Int := item.quantity.num * ⌊item.unitPrice⌋

/-- The sum of the lines does not reach the next whole number above the whole amounts. -/
def Added (items : List PurchaseOrderItemProps) : Prop :=
  Binary64.sum (items.map PurchaseOrderItemProps.subtotal) < (items.map wholeAmount).sum + 1

section Amounts

variable {items : List PurchaseOrderItemProps}

theorem num_of_whole {value : ℚ} (h : value.den = 1) : (value.num : ℚ) = value :=
  (Rat.den_eq_one_iff value).mp h

theorem subtotal_nonneg (h : Priced items) {item : PurchaseOrderItemProps} (hitem : item ∈ items) :
    0 ≤ item.subtotal := by
  obtain ⟨hquantity, hprice, hsubtotal⟩ := h item hitem
  rw [hsubtotal]
  exact Binary64.le_round Binary64.isDouble_zero (mul_nonneg (le_of_lt hquantity) hprice)

theorem wholeAmount_nonneg (h : Priced items) {item : PurchaseOrderItemProps}
    (hitem : item ∈ items) : 0 ≤ wholeAmount item := by
  obtain ⟨hquantity, hprice, -⟩ := h item hitem
  exact mul_nonneg (le_of_lt (Rat.num_pos.mpr hquantity)) (Int.floor_nonneg.mpr hprice)

/-- A column that takes the subtotal shows at least the whole amount. -/
theorem wholeAmount_le (h : Priced items) {item : PurchaseOrderItemProps} (hitem : item ∈ items)
    (hwhole : item.quantity.den = 1) (hlimit : toInt item.subtotal ≤ 2147483647) :
    wholeAmount item ≤ toInt item.subtotal := by
  obtain ⟨hquantity, hprice, hsubtotal⟩ := h item hitem
  have hle : (wholeAmount item : ℚ) ≤ item.quantity * item.unitPrice := by
    unfold wholeAmount
    rw [Int.cast_mul, num_of_whole hwhole]
    exact mul_le_mul_of_nonneg_left (Int.floor_le _) (le_of_lt hquantity)
  have hround := Binary64.min_le_round (wholeAmount_nonneg h hitem) hle
  rw [toInt_of_nonneg (subtotal_nonneg h hitem), hsubtotal] at hlimit ⊢
  have hfloor := Int.le_floor.mpr hround
  omega

theorem sum_nonneg (h : Priced items) :
    0 ≤ Binary64.sum (items.map PurchaseOrderItemProps.subtotal) := by
  have hmin := Binary64.min_le_sum (l := items) (n := fun _ => 0)
    (x := PurchaseOrderItemProps.subtotal)
    fun item hitem => ⟨le_refl _, by exact_mod_cast subtotal_nonneg h hitem⟩
  have hzero : (items.map fun _ => (0 : Int)).sum = 0 := List.sum_map_zero
  rw [hzero] at hmin
  exact hmin

/-- What the columns keep of the subtotals and the total, once they took them, adds up when
the sum of the lines does. -/
theorem added_iff (h : Priced items) (hwhole : ∀ item ∈ items, item.quantity.den = 1)
    (hlimits : ∀ item ∈ items, toInt item.subtotal ≤ 2147483647)
    (htotal : toInt (Binary64.sum (items.map PurchaseOrderItemProps.subtotal)) ≤ 2147483647) :
    Added items ↔ (∀ item ∈ items, toInt item.subtotal = wholeAmount item) ∧
      toInt (Binary64.sum (items.map PurchaseOrderItemProps.subtotal)) =
        (items.map fun item => toInt item.subtotal).sum := by
  rw [toInt_of_nonneg (sum_nonneg h)] at htotal ⊢
  have hstored : ((items.map fun item => toInt item.subtotal).sum : ℚ) ≤
      Binary64.sum (items.map PurchaseOrderItemProps.subtotal) := by
    have hmin := Binary64.min_le_sum (l := items) (n := fun item => toInt item.subtotal)
      (x := PurchaseOrderItemProps.subtotal) fun item hitem => by
        rw [toInt_of_nonneg (subtotal_nonneg h hitem)]
        exact ⟨Int.floor_nonneg.mpr (subtotal_nonneg h hitem), Int.floor_le _⟩
    have hfloor := Int.le_floor.mpr hmin
    rw [min_eq_left (by omega)] at hmin
    exact hmin
  constructor
  · intro hadded
    have hsum : (items.map fun item => toInt item.subtotal).sum ≤ (items.map wholeAmount).sum := by
      have hlt := lt_of_le_of_lt hstored hadded
      exact Int.lt_add_one_iff.mp (by exact_mod_cast hlt)
    have hall : ∀ item ∈ items, toInt item.subtotal = wholeAmount item := by
      by_contra hnot
      rw [not_forall] at hnot
      obtain ⟨item, hnot⟩ := hnot
      rw [Classical.not_imp] at hnot
      refine absurd hsum (not_le.mpr (List.sum_lt_sum _ _ (fun other hother => ?_)
        ⟨item, hnot.1, ?_⟩))
      · exact wholeAmount_le h hother (hwhole other hother) (hlimits other hother)
      · exact lt_of_le_of_ne (wholeAmount_le h hnot.1 (hwhole item hnot.1) (hlimits item hnot.1))
          (Ne.symm hnot.2)
    refine ⟨hall, Int.floor_eq_iff.mpr ⟨hstored, ?_⟩⟩
    rw [List.map_congr_left hall]
    exact hadded
  · rintro ⟨hall, heq⟩
    rw [List.map_congr_left hall] at heq
    unfold Added
    rw [← heq]
    exact Int.lt_floor_add_one _

/-- Whole prices have no fractions to add up. -/
theorem added_of_whole (h : Priced items) (hwhole : ∀ item ∈ items, item.quantity.den = 1)
    (hprices : ∀ item ∈ items, item.unitPrice.den = 1)
    (hlimits : ∀ item ∈ items, toInt item.subtotal ≤ 2147483647)
    (htotal : toInt (Binary64.sum (items.map PurchaseOrderItemProps.subtotal)) ≤ 2147483647) :
    Added items := by
  have hnonneg : ∀ item ∈ items, 0 ≤ wholeAmount item := fun _ hitem => wholeAmount_nonneg h hitem
  have hexact : ∀ item ∈ items, item.subtotal = wholeAmount item := by
    intro item hitem
    have hfloor : (⌊item.unitPrice⌋ : ℚ) = item.unitPrice := by
      rw [← num_of_whole (hprices item hitem), Int.floor_intCast]
    have hamount : item.quantity * item.unitPrice = wholeAmount item := by
      unfold wholeAmount
      rw [Int.cast_mul, num_of_whole (hwhole item hitem), hfloor]
    have hle := wholeAmount_le h hitem (hwhole item hitem) (hlimits item hitem)
    have hlimit := hlimits item hitem
    rw [(h item hitem).2.2, hamount]
    refine Binary64.isDouble_intCast ?_
    rw [abs_of_nonneg (hnonneg item hitem)]
    omega
  rw [toInt_of_nonneg (sum_nonneg h)] at htotal
  have hmin := Int.le_floor.mpr (Binary64.min_le_sum (l := items) (n := wholeAmount)
    (x := PurchaseOrderItemProps.subtotal)
    fun item hitem => ⟨hnonneg item hitem, le_of_eq (hexact item hitem).symm⟩)
  unfold Added
  rw [List.map_congr_left hexact, Binary64.sum_intCast hnonneg (by omega)]
  exact lt_add_one _

end Amounts

/-- Data of lines that are as `create` makes them. -/
structure FormOk (catalogue : DB) (tenantId : Id) (items : List PurchaseOrderItemProps) : Prop where
  lines : items ≠ []
  distinct : (items.map PurchaseOrderItemProps.inventoryItemId).Nodup
  owned : ∀ item ∈ items, ∃ row ∈ catalogue.items,
    row.id = item.inventoryItemId ∧ row.tenantId = tenantId
  whole : ∀ item ∈ items, item.quantity.den = 1
  added : Added items

/-- An order is well formed as the data of its lines is. -/
theorem wellFormed_iff {catalogue : DB} {row : OrderRow} {items : List PurchaseOrderItemProps}
    {next : Id} (hpriced : Priced items) (hmade : lineRows next items = .ok row.lines)
    (htotal : storeInt (Binary64.sum (items.map PurchaseOrderItemProps.subtotal)) =
      .ok row.totalAmount) :
    WellFormed catalogue row ↔ FormOk catalogue row.tenantId items := by
  obtain ⟨hlines, hlimits⟩ := lineRows_ok hmade
  obtain ⟨hstored, hlimit⟩ := storeInt_ok htotal
  rw [hstored] at hlimit
  have hids : items.map PurchaseOrderItemProps.inventoryItemId =
      row.lines.map fun line => line.inventoryItemId := by
    have h := congrArg (List.map PurchaseOrderItemProps.inventoryItemId) hlines
    rw [List.map_map, List.map_map] at h
    exact h.symm
  have hsubtotals : (items.map fun item => toInt item.subtotal).sum =
      (row.lines.map OrderLine.subtotal).sum := by
    have h := congrArg (List.map fun item => toInt item.subtotal) hlines
    rw [List.map_map, List.map_map] at h
    have hleft : (fun item : PurchaseOrderItemProps => toInt item.subtotal) ∘ OrderLine.props =
        OrderLine.subtotal := funext fun line => toInt_intCast line.subtotal
    have hright : (fun item : PurchaseOrderItemProps => toInt item.subtotal) ∘
        PurchaseOrderItemProps.stored = fun item => toInt item.subtotal :=
      funext fun item => toInt_intCast (toInt item.subtotal)
    rw [hleft, hright] at h
    rw [h]
  have hall (P : PurchaseOrderItemProps → Prop) :
      (∀ item ∈ items, P item.stored) ↔ ∀ line ∈ row.lines, P line.props := by
    have hleft := List.forall_mem_map (f := PurchaseOrderItemProps.stored) (l := items) (P := P)
    have hright := List.forall_mem_map (f := OrderLine.props) (l := row.lines) (P := P)
    rw [← hleft, ← hright, hlines]
  have hamount (item : PurchaseOrderItemProps) (hitem : item ∈ items)
      (hwhole : item.quantity.den = 1) : toInt item.subtotal = wholeAmount item ↔
        ((toInt item.subtotal : ℚ) = item.quantity * toInt item.unitPrice) := by
    have hcast : item.quantity * toInt item.unitPrice = wholeAmount item := by
      unfold wholeAmount
      rw [Int.cast_mul, num_of_whole hwhole, toInt_of_nonneg (hpriced item hitem).2.1]
    rw [hcast, Int.cast_inj]
  have howned := hall fun item => ∃ r ∈ catalogue.items,
    r.id = item.inventoryItemId ∧ r.tenantId = row.tenantId
  have hquantity := hall fun item => item.quantity.den = 1 ∧ 0 < item.quantity
  have hprice := hall fun item => 0 ≤ item.unitPrice
  have hsubtotal := hall fun item => item.subtotal = item.quantity * item.unitPrice
  constructor
  · intro h
    have hwhole := fun item hitem => (hquantity.mpr h.quantity item hitem).1
    refine ⟨?_, hids ▸ h.distinct, howned.mpr h.owned, hwhole, ?_⟩
    · rintro rfl
      exact h.lines (List.map_eq_nil_iff.mp hlines)
    · refine (added_iff hpriced hwhole hlimits hlimit).mpr ⟨fun item hitem => ?_, ?_⟩
      · exact (hamount item hitem (hwhole item hitem)).mpr (hsubtotal.mpr h.subtotal item hitem)
      · rw [← hstored, hsubtotals]
        exact h.total
  · intro h
    obtain ⟨hamounts, htotal'⟩ := (added_iff hpriced h.whole hlimits hlimit).mp h.added
    refine ⟨?_, hids ▸ h.distinct, howned.mp h.owned, hquantity.mp fun item hitem =>
      ⟨h.whole item hitem, (hpriced item hitem).1⟩, fun line hline => ?_,
      hsubtotal.mp fun item hitem =>
        (hamount item hitem (h.whole item hitem)).mp (hamounts item hitem), ?_⟩
    · intro hnil
      rw [hnil] at hlines
      exact h.lines (List.map_eq_nil_iff.mp hlines.symm)
    · have hprices := hprice.mp fun item hitem => by
        show (0 : ℚ) ≤ (toInt item.unitPrice : ℚ)
        rw [toInt_of_nonneg (hpriced item hitem).2.1]
        exact Int.cast_nonneg (Int.floor_nonneg.mpr (hpriced item hitem).2.1)
      exact Int.cast_nonneg_iff.mp (hprices line hline)
    · rw [hstored, ← hsubtotals]
      exact htotal'

/-! ## What the calls accept -/

theorem checkLines_ok {items : List CreatePurchaseOrderItemDto} (h : checkLines items = .ok ()) :
    ∀ item ∈ items, (item.quantity.den = 1 ∧ 0 < item.quantity) ∧
      item.unitPrice.den = 1 ∧ 0 ≤ item.unitPrice := by
  induction items with
  | nil => exact fun item hitem => absurd hitem List.not_mem_nil
  | cons item rest ih =>
      unfold checkLines at h
      split at h
      · cases h
      rename_i hquantity
      split at h
      · cases h
      rename_i hprice
      rw [not_not] at hquantity hprice
      intro other hother
      rcases List.mem_cons.mp hother with rfl | hrest
      · exact ⟨⟨of_decide_eq_true hquantity.1, hquantity.2⟩, of_decide_eq_true hprice.1, hprice.2⟩
      · exact ih h other hrest

/-- An order that `create` accepts is new and well formed. -/
theorem create_ok {month : Nat} {newId : Id} {dto : CreatePurchaseOrderDto}
    (h : book.create tenantId month newId dto = .ok book') :
    book'.catalogue = book.catalogue ∧ ∃ row, WellFormed book.catalogue row ∧
      book'.orders = book.orders.insert row := by
  unfold OrderBook.create at h
  split at h
  · cases h
  split at h
  · cases h
  split at h
  · cases h
  rename_i hfound
  rw [not_not] at hfound
  split at h
  · cases h
  · cases h
  rename_i hcheck _
  dsimp only at h
  split at h
  · cases h
  split at h
  · cases h
  · cases h
  rename_i totalAmount lines htotal hlines
  cases h
  unfold checkAggregate at hcheck
  split at hcheck
  · cases hcheck
  rename_i hsome
  split at hcheck
  · cases hcheck
  rename_i hdistinct
  have hlinesOk := checkLines_ok hcheck
  have hids : (dto.items.map CreatePurchaseOrderItemDto.props).map
      PurchaseOrderItemProps.inventoryItemId =
        dto.items.map CreatePurchaseOrderItemDto.inventoryItemId := by
    rw [List.map_map]
    rfl
  have hpriced : Priced (dto.items.map CreatePurchaseOrderItemDto.props) := by
    intro item hitem
    obtain ⟨dtoItem, hdto, rfl⟩ := List.mem_map.mp hitem
    exact ⟨(hlinesOk dtoItem hdto).1.2, (hlinesOk dtoItem hdto).2.2, rfl⟩
  have hwhole : ∀ item ∈ dto.items.map CreatePurchaseOrderItemDto.props,
      item.quantity.den = 1 := by
    intro item hitem
    obtain ⟨dtoItem, hdto, rfl⟩ := List.mem_map.mp hitem
    exact (hlinesOk dtoItem hdto).1.1
  refine ⟨rfl, _, (wellFormed_iff hpriced hlines htotal).mpr ⟨fun hnil =>
    hsome (List.map_eq_nil_iff.mp hnil), by rw [hids]; exact not_not.mp hdistinct, ?_, hwhole, ?_⟩,
    rfl⟩
  · -- as many items were found as the request has, and the request names each once
    intro item hitem
    have hmem : item.inventoryItemId ∈
        dto.items.map CreatePurchaseOrderItemDto.inventoryItemId := by
      rw [← hids]
      exact List.mem_map_of_mem hitem
    obtain ⟨row, hrow, hsat, hid⟩ := Rows.exists_of_length
      (t := (⟨book.catalogue.items, book.itemIds⟩ : Rows InventoryItem InventoryItem.id))
      (p := fun row => decide (row.id ∈ dto.items.map CreatePurchaseOrderItemDto.inventoryItemId ∧
        row.tenantId = tenantId))
      (fun r hr => (of_decide_eq_true hr).1) (by rw [List.length_map]; exact hfound) hmem
    exact ⟨row, hrow, hid, (of_decide_eq_true hsat).2⟩
  · obtain ⟨htotal', hlimit⟩ := storeInt_ok htotal
    rw [htotal'] at hlimit
    refine added_of_whole hpriced hwhole (fun item hitem => ?_) (lineRows_ok hlines).2 hlimit
    obtain ⟨dtoItem, hdto, rfl⟩ := List.mem_map.mp hitem
    exact (hlinesOk dtoItem hdto).2.1

theorem parseItem_ok {item : UpdatePurchaseOrderItemDto} {props : PurchaseOrderItemProps}
    (h : parseItem item = .ok props) :
    item.inventoryItemId = some props.inventoryItemId ∧ item.quantity.getD 0 = props.quantity ∧
      item.unitPrice.getD 0 = props.unitPrice ∧ 0 < props.quantity ∧ 0 ≤ props.unitPrice ∧
      props.subtotal = Binary64.round (props.quantity * props.unitPrice) := by
  unfold parseItem at h
  dsimp only at h
  split at h
  · cases h
  rename_i hid
  split at h
  · cases h
  rename_i hbounds
  rw [not_or, not_le, not_lt] at hbounds
  cases h
  exact ⟨hid, rfl, rfl, hbounds.1, hbounds.2, rfl⟩

/-- The lines `update` has parsed, against those of the request. -/
theorem parseItems_ok {items : List UpdatePurchaseOrderItemDto}
    {parsed : List PurchaseOrderItemProps} (h : items.mapM parseItem = .ok parsed) :
    items.map (fun item => (item.inventoryItemId, item.quantity.getD 0, item.unitPrice.getD 0)) =
        parsed.map (fun props => (some props.inventoryItemId, props.quantity, props.unitPrice)) ∧
      Priced parsed := by
  induction items generalizing parsed with
  | nil =>
      cases h
      exact ⟨rfl, fun props hprops => absurd hprops List.not_mem_nil⟩
  | cons item rest ih =>
      rw [List.mapM_cons] at h
      cases hitem : parseItem item with
      | error e =>
          rw [hitem] at h
          cases h
      | ok props =>
          cases hrest : rest.mapM parseItem with
          | error e =>
              rw [hitem, hrest] at h
              cases h
          | ok more =>
              rw [hitem, hrest] at h
              cases h
              obtain ⟨hid, hquantity, hprice, hbounds⟩ := parseItem_ok hitem
              obtain ⟨hlines, hall⟩ := ih hrest
              refine ⟨?_, ?_⟩
              · rw [List.map_cons, List.map_cons, hid, hquantity, hprice, hlines]
              · intro other hother
                rcases List.mem_cons.mp hother with rfl | hother
                · exact hbounds
                · exact hall other hother

/-- An edit that is accepted keeps the lines of the order and its total, or replaces
them by the lines of the request and the sum of these. -/
theorem prepareUpdate_ok {db : DB} {dto : UpdatePurchaseOrderDto} {data : PurchaseOrderData}
    (h : prepareUpdate db tenantId id dto = .ok data) :
    ∃ po, findPurchaseOrder db tenantId id = some po ∧
      ((dto.items.getD [] = [] ∧ data.items = none ∧ data.totalAmount = po.totalAmount) ∨
        ∃ parsed, dto.items.getD [] ≠ [] ∧ (dto.items.getD []).mapM parseItem = .ok parsed ∧
          data.items = some parsed ∧
          data.totalAmount = Binary64.sum (parsed.map PurchaseOrderItemProps.subtotal)) := by
  unfold prepareUpdate at h
  split at h
  · cases h
  rename_i po hpo
  refine ⟨po, hpo, ?_⟩
  by_cases hstatus : po.status = .draft ∨ po.status = .pending
  · cases hwarehouse : checkAssignedWarehouse db tenantId po dto.warehouseId with
    | error e =>
        simp only [hstatus, not_true_eq_false, if_false, hwarehouse] at h
        cases h
    | ok _ =>
        cases hsupplier : checkAssignedSupplier db tenantId po dto.supplierId with
        | error e =>
            simp only [hstatus, not_true_eq_false, if_false, hwarehouse, hsupplier] at h
            cases h
        | ok _ =>
            simp only [hstatus, not_true_eq_false, if_false, hwarehouse, hsupplier] at h
            cases hitems : dto.items with
            | none =>
                rw [hitems] at h
                cases h
                exact .inl ⟨rfl, rfl, rfl⟩
            | some items =>
                rw [hitems] at h
                by_cases hnil : items = []
                · rw [hnil] at h ⊢
                  cases h
                  exact .inl ⟨rfl, rfl, rfl⟩
                · have hfilter : (some items).filter (fun l => decide (l ≠ [])) = some items := by
                    simp [Option.filter, hnil]
                  rw [hfilter] at h
                  cases hparsed : items.mapM parseItem with
                  | error e =>
                      simp only [hparsed] at h
                      cases h
                  | ok parsed =>
                      simp only [hparsed] at h
                      cases h
                      exact .inr ⟨parsed, hnil, hparsed, rfl, rfl⟩
  · simp only [hstatus, not_false_eq_true, if_true] at h
    cases h

/-- Parsed lines are as `create` makes them when the request is strict. -/
theorem formOk_iff {catalogue : DB} {items : List UpdatePurchaseOrderItemDto}
    {parsed : List PurchaseOrderItemProps} (h : items.mapM parseItem = .ok parsed)
    (hsome : items ≠ []) : FormOk catalogue tenantId parsed ↔ Strict catalogue tenantId items := by
  obtain ⟨hlines, hpriced⟩ := parseItems_ok h
  have hmap {β : Type} (f : Option Id → ℚ → ℚ → β) :
      items.map (fun item => f item.inventoryItemId (item.quantity.getD 0)
          (item.unitPrice.getD 0)) =
        parsed.map fun props => f (some props.inventoryItemId) props.quantity props.unitPrice := by
    have hboth := congrArg (List.map fun line => f line.1 line.2.1 line.2.2) hlines
    rw [List.map_map, List.map_map] at hboth
    exact hboth
  have hdistinct : (items.map UpdatePurchaseOrderItemDto.inventoryItemId).Nodup ↔
      (parsed.map PurchaseOrderItemProps.inventoryItemId).Nodup := by
    have hids : items.map UpdatePurchaseOrderItemDto.inventoryItemId =
        (parsed.map PurchaseOrderItemProps.inventoryItemId).map some := by
      rw [List.map_map]
      exact hmap fun itemId _ _ => itemId
    rw [hids]
    exact List.nodup_map_iff (Option.some_injective Id)
  have hall (P : Option Id → ℚ → Prop) :
      (∀ item ∈ items, P item.inventoryItemId (item.quantity.getD 0)) ↔
        ∀ props ∈ parsed, P (some props.inventoryItemId) props.quantity := by
    have hprops := hmap fun itemId quantity _ => P itemId quantity
    have hleft := List.forall_mem_map (f := fun item : UpdatePurchaseOrderItemDto =>
      P item.inventoryItemId (item.quantity.getD 0)) (l := items) (P := id)
    have hright := List.forall_mem_map (f := fun props : PurchaseOrderItemProps =>
      P (some props.inventoryItemId) props.quantity) (l := parsed) (P := id)
    rw [hprops] at hleft
    exact hleft.symm.trans hright
  have hnil : parsed ≠ [] := by
    rintro rfl
    exact hsome (List.map_eq_nil_iff.mp hlines)
  have howned := hall fun itemId _ =>
    ∃ row ∈ catalogue.items, some row.id = itemId ∧ row.tenantId = tenantId
  have hwhole := hall fun _ quantity => quantity.den = 1
  have hsums : Binary64.sum (items.map fun item =>
        Binary64.round (item.quantity.getD 0 * item.unitPrice.getD 0)) =
      Binary64.sum (parsed.map PurchaseOrderItemProps.subtotal) := by
    rw [hmap fun _ quantity unitPrice => Binary64.round (quantity * unitPrice)]
    exact congrArg Binary64.sum (List.map_congr_left fun props hprops =>
      (hpriced props hprops).2.2.symm)
  have hamounts (h : ∀ props ∈ parsed, props.quantity.den = 1) :
      (items.map fun item => item.quantity.getD 0 * (⌊item.unitPrice.getD 0⌋ : ℚ)).sum =
        ((parsed.map wholeAmount).sum : Int) := by
    rw [hmap fun _ quantity unitPrice => quantity * (⌊unitPrice⌋ : ℚ), Int.cast_list_sum,
      List.map_map]
    refine congrArg List.sum (List.map_congr_left fun props hprops => ?_)
    unfold wholeAmount
    rw [Function.comp, Int.cast_mul, num_of_whole (h props hprops)]
  constructor
  · intro hform
    refine ⟨hdistinct.mpr hform.distinct, howned.mpr fun props hprops => ?_,
      hwhole.mpr hform.whole, ?_⟩
    · obtain ⟨row, hrow, hid, htenant⟩ := hform.owned props hprops
      exact ⟨row, hrow, congrArg some hid, htenant⟩
    · rw [hsums, hamounts hform.whole]
      exact hform.added
  · intro hstrict
    refine ⟨hnil, hdistinct.mp hstrict.distinct, fun props hprops => ?_,
      hwhole.mp hstrict.whole, ?_⟩
    · obtain ⟨row, hrow, hid, htenant⟩ := howned.mp hstrict.owned props hprops
      exact ⟨row, hrow, Option.some.inj hid, htenant⟩
    · have hadded := hstrict.fractions
      rw [hsums, hamounts (hwhole.mp hstrict.whole)] at hadded
      exact hadded

/-- The row an edit finds. -/
theorem row_of_find {po : PurchaseOrder} (h : findPurchaseOrder book.db tenantId id = some po) :
    ∃ row ∈ book.orders.toList, row.toOrder = po ∧ row.id = id ∧ row.tenantId = tenantId := by
  unfold findPurchaseOrder at h
  have hsat := List.find?_some h
  obtain ⟨row, hrow, hpo⟩ := List.mem_map.mp (List.mem_of_find?_eq_some h)
  rw [decide_eq_true_iff, ← hpo] at hsat
  exact ⟨row, hrow, hpo, hsat.1, hsat.2⟩

/-- An edit of the one row with the id. -/
theorem updateMany_wellFormed_iff {catalogue : DB} {row : OrderRow} (edit : OrderRow → OrderRow)
    (hedit : ∀ r, (edit r).id = r.id) (hrow : row ∈ book.orders.toList)
    (hall : ∀ r ∈ book.orders.toList, WellFormed catalogue r) :
    (∀ r ∈ (book.orders.updateMany (fun r => decide (r.id = row.id ∧ r.tenantId = row.tenantId))
        edit hedit).toList, WellFormed catalogue r) ↔ WellFormed catalogue (edit row) := by
  constructor
  · intro h
    exact h _ (Rows.mem_updateMany.mpr ⟨row, hrow, if_pos (decide_eq_true ⟨rfl, rfl⟩)⟩)
  · intro h r hr
    obtain ⟨old, hold, rfl⟩ := Rows.mem_updateMany.mp hr
    split
    · rename_i hsat
      have hsame : old = row := by
        have hget := Rows.get_of_mem hold
        rw [(of_decide_eq_true hsat).1, Rows.get_of_mem hrow] at hget
        exact (Option.some.inj hget).symm
      rw [hsame]
      exact h
    · exact hall old hold

/-- An edit that is accepted keeps the orders well formed exactly when its lines are
strict. -/
theorem update_wellFormed_iff {dto : UpdatePurchaseOrderDto}
    (hall : ∀ row ∈ book.orders.toList, WellFormed book.catalogue row)
    (h : book.update tenantId id dto = .ok book') :
    book'.catalogue = book.catalogue ∧
      ((∀ row ∈ book'.orders.toList, WellFormed book.catalogue row) ↔
        Strict book.catalogue tenantId (dto.items.getD [])) := by
  unfold OrderBook.update at h
  split at h
  · cases h
  split at h
  · cases h
  rename_i data hdata
  obtain ⟨po, hpo, hcases⟩ := prepareUpdate_ok hdata
  obtain ⟨row, hrow, rfl, rfl, rfl⟩ := row_of_find hpo
  unfold OrderBook.write at h
  rcases hcases with ⟨hnone, hitems, htotal⟩ | ⟨parsed, hsome, hparsed, hitems, htotal⟩
  · rw [hitems] at h
    cases hstore : storeInt data.totalAmount with
    | error e =>
        rw [hstore] at h
        cases h
    | ok totalAmount =>
        rw [hstore] at h
        cases h
        refine ⟨rfl, (updateMany_wellFormed_iff (fun r =>
          { r with supplierId := data.supplierId, warehouseId := data.warehouseId, totalAmount })
          (fun _ => rfl) hrow hall).trans ?_⟩
        have hsame : totalAmount = row.totalAmount := by
          have hstored := (storeInt_ok hstore).1
          rw [htotal, toInt_intCast] at hstored
          exact hstored
        have hold := hall row hrow
        rw [hnone]
        refine iff_of_true ⟨hold.lines, hold.distinct, hold.owned, hold.quantity, hold.unitPrice,
          hold.subtotal, hsame.trans hold.total⟩ ⟨List.nodup_nil, fun item hitem => ?_,
            fun item hitem => ?_, ?_⟩
        · exact absurd hitem List.not_mem_nil
        · exact absurd hitem List.not_mem_nil
        · exact lt_add_one (0 : ℚ)
  · rw [hitems] at h
    cases hstore : storeInt data.totalAmount with
    | error e =>
        rw [hstore] at h
        cases h
    | ok totalAmount =>
        rw [hstore] at h
        dsimp only at h
        split at h
        · cases h
        cases hlines : lineRows book.nextLine parsed with
        | error e =>
            rw [hlines] at h
            cases h
        | ok lines =>
            rw [hlines] at h
            cases h
            refine ⟨rfl, (updateMany_wellFormed_iff (fun r =>
              { r with supplierId := data.supplierId, warehouseId := data.warehouseId, totalAmount,
                       lines }) (fun _ => rfl) hrow hall).trans ?_⟩
            rw [htotal] at hstore
            exact (wellFormed_iff (parseItems_ok hparsed).2 hlines hstore).trans
              (formOk_iff hparsed hsome)

/-! ## Whole runs -/

/-- An accepted edit of the run has strict lines. -/
def StrictCall (book : OrderBook) : OrderCall → Prop
  | .create _ _ _ _ => True
  | .update tenantId id dto =>
      ∀ book', book.update tenantId id dto = .ok book' →
        Strict book.catalogue tenantId (dto.items.getD [])

theorem create_wellFormed {month : Nat} {newId : Id} {dto : CreatePurchaseOrderDto}
    (hall : ∀ row ∈ book.orders.toList, WellFormed book.catalogue row)
    (h : book.create tenantId month newId dto = .ok book') :
    book'.catalogue = book.catalogue ∧
      ∀ row ∈ book'.orders.toList, WellFormed book.catalogue row := by
  obtain ⟨hcatalogue, row, hrow, horders⟩ := create_ok h
  refine ⟨hcatalogue, fun r hr => ?_⟩
  rw [horders] at hr
  rcases Rows.mem_insert hr with hr | rfl
  · exact hall r hr
  · exact hrow

/-- One call of a run. -/
theorem exec_wellFormed_iff (hall : ∀ row ∈ book.orders.toList, WellFormed book.catalogue row)
    (call : OrderCall) :
    (book.run [call]).catalogue = book.catalogue ∧
      ((∀ row ∈ (book.run [call]).orders.toList, WellFormed book.catalogue row) ↔
        StrictCall book call) := by
  have hrun : book.run [call] = (call.exec book).toOption.getD book := rfl
  rw [hrun]
  cases call with
  | create tenantId month newId dto =>
      show ((book.create tenantId month newId dto).toOption.getD book).catalogue = _ ∧ _
      cases hcreate : book.create tenantId month newId dto with
      | error e =>
          have hexec : (OrderCall.create tenantId month newId dto).exec book = .error e := hcreate
          rw [hexec]
          exact ⟨rfl, iff_of_true hall trivial⟩
      | ok book' =>
          have hexec : (OrderCall.create tenantId month newId dto).exec book = .ok book' := hcreate
          rw [hexec]
          obtain ⟨hcatalogue, hkept⟩ := create_wellFormed hall hcreate
          exact ⟨hcatalogue, iff_of_true hkept trivial⟩
  | update tenantId id dto =>
      cases hupdate : book.update tenantId id dto with
      | error e =>
          have hexec : (OrderCall.update tenantId id dto).exec book = .error e := hupdate
          rw [hexec]
          refine ⟨rfl, iff_of_true hall fun book' hok => ?_⟩
          rw [hupdate] at hok
          cases hok
      | ok book' =>
          have hexec : (OrderCall.update tenantId id dto).exec book = .ok book' := hupdate
          rw [hexec]
          obtain ⟨hcatalogue, hiff⟩ := update_wellFormed_iff hall hupdate
          refine ⟨hcatalogue, hiff.trans ⟨fun hstrict _ _ => hstrict, fun h => h book' hupdate⟩⟩

/-- In a run of creations and edits from orders that are well formed, every state has
well-formed orders only if and only if every edit that was accepted has strict lines. -/
theorem orders_wellFormed_iff (book : OrderBook)
    (hstart : ∀ row ∈ book.orders.toList, WellFormed book.catalogue row)
    (calls : List OrderCall) :
    (∀ prior, prior <+: calls → ∀ row ∈ (book.run prior).orders.toList,
        WellFormed book.catalogue row) ↔
      ∀ prior call rest, calls = prior ++ call :: rest → StrictCall (book.run prior) call := by
  induction calls generalizing book with
  | nil =>
      refine iff_of_true (fun prior hprior => ?_) fun prior call rest heq => ?_
      · rw [List.prefix_nil.mp hprior]
        exact hstart
      · exact absurd heq.symm (by simp)
  | cons call rest ih =>
      obtain ⟨hcatalogue, hiff⟩ := exec_wellFormed_iff hstart call
      have hcons (more : List OrderCall) : book.run (call :: more) =
        (book.run [call]).run more := rfl
      constructor
      · intro h prior c later heq
        have hfirst : ∀ row ∈ (book.run [call]).orders.toList, WellFormed book.catalogue row :=
          h [call] ⟨rest, rfl⟩
        cases prior with
        | nil =>
            cases heq
            exact hiff.mp hfirst
        | cons first done =>
            cases heq
            rw [hcons]
            have hih := ih (book.run [call]) (by rw [hcatalogue]; exact hfirst)
            rw [hcatalogue] at hih
            refine hih.mp (fun prior hprior => ?_) done c later rfl
            rw [← hcons]
            exact h (call :: prior) (List.cons_prefix_cons.mpr ⟨rfl, hprior⟩)
      · intro h prior hprior
        have hfirst := hiff.mpr (h [] call rest rfl)
        cases prior with
        | nil => exact hstart
        | cons first done =>
            obtain ⟨rfl, hdone⟩ := List.cons_prefix_cons.mp hprior
            rw [hcons]
            have hih := ih (book.run [first]) (by rw [hcatalogue]; exact hfirst)
            rw [hcatalogue] at hih
            refine hih.mpr (fun prior c later heq => ?_) done hdone
            rw [← hcons]
            exact h (first :: prior) c later (by rw [heq]; rfl)

/-- A tenant with a supplier and an item, and an item of another tenant. -/
def emptyBook : OrderBook where
  orders := .empty
  catalogue :=
    { nextId := 10, tenants := [⟨1, .retail⟩, ⟨2, .retail⟩], warehouses := [],
      items := [⟨5, 1, "Flour", none, none, none, none, none⟩,
        ⟨6, 2, "Sugar", none, none, none, none, none⟩],
      products := [], stocks := [], movements := [], layers := [], allocations := [],
      transfers := [], transferReceipts := [], suppliers := [⟨3, 1, true⟩], purchaseOrders := [],
      purchaseReceipts := [], priceVariances := [], orders := [], outbox := [] }
  itemIds := by decide
  currencyCode := fun _ => some "IDR"
  nextLine := 100

/-- An order of two sacks. -/
def twoSacks : OrderCall := .create 1 24303 7 ⟨3, none, [⟨5, 2, 1000⟩]⟩

/-- An edit that changes the price. -/
theorem orders_wellFormed_example :
    (emptyBook.run [twoSacks]).orders.toList.length = 1 ∧
    ∀ prior, prior <+: [twoSacks, .update 1 7 ⟨none, none, some [⟨some 5, some 3, some 1500⟩]⟩] →
      ∀ row ∈ (emptyBook.run prior).orders.toList, WellFormed emptyBook.catalogue row := by
  refine ⟨by decide +kernel, (orders_wellFormed_iff emptyBook
    (fun row hrow => absurd hrow List.not_mem_nil) _).mpr ?_⟩
  intro prior call rest heq
  -- the calls are the creation and the edit
  rcases prior with _ | ⟨first, _ | ⟨second, done⟩⟩
  · cases heq
    trivial
  · cases heq
    intro book' _
    refine ⟨by decide, fun item hitem => ?_, fun item hitem => ?_, by decide +kernel⟩
    · rw [List.mem_singleton.mp hitem]
      have hcatalogue : (emptyBook.run [twoSacks]).catalogue.items = emptyBook.catalogue.items := by
        decide +kernel
      rw [hcatalogue]
      exact ⟨⟨5, 1, "Flour", none, none, none, none, none⟩, List.mem_cons_self, rfl, rfl⟩
    · rw [List.mem_singleton.mp hitem]
      rfl
  · simp at heq

/-- Edits are accepted that name an item twice, an item of another tenant, or half a
unit, or that lose half of the price of each of two units. -/
theorem order_malformed_by_update :
    (∃ row ∈ (emptyBook.run [twoSacks, .update 1 7 ⟨none, none,
        some [⟨some 5, some 1, some 1000⟩, ⟨some 5, some 1, some 2000⟩]⟩]).orders.toList,
      ¬ WellFormed emptyBook.catalogue row) ∧
    (∃ row ∈ (emptyBook.run [twoSacks, .update 1 7 ⟨none, none,
        some [⟨some 6, some 1, some 1000⟩]⟩]).orders.toList,
      ¬ WellFormed emptyBook.catalogue row) ∧
    (∃ row ∈ (emptyBook.run [twoSacks, .update 1 7 ⟨none, none,
        some [⟨some 5, some (3 / 2), some 1000⟩]⟩]).orders.toList,
      ¬ WellFormed emptyBook.catalogue row) ∧
    ∃ row ∈ (emptyBook.run [twoSacks, .update 1 7 ⟨none, none,
        some [⟨some 5, some 2, some (21 / 2)⟩]⟩]).orders.toList,
      ¬ WellFormed emptyBook.catalogue row := by
  refine ⟨⟨⟨7, 1, "PO-202504-00001", 3, none, .draft, 3000,
      [⟨⟨101, 5, 1, 1000, 0⟩, 1000⟩, ⟨⟨102, 5, 1, 2000, 0⟩, 2000⟩]⟩, ?_, fun h => ?_⟩,
    ⟨⟨7, 1, "PO-202504-00001", 3, none, .draft, 1000, [⟨⟨101, 6, 1, 1000, 0⟩, 1000⟩]⟩, ?_,
      fun h => ?_⟩,
    ⟨⟨7, 1, "PO-202504-00001", 3, none, .draft, 1500, [⟨⟨101, 5, 3 / 2, 1000, 0⟩, 1500⟩]⟩, ?_,
      fun h => ?_⟩,
    ⟨⟨7, 1, "PO-202504-00001", 3, none, .draft, 21, [⟨⟨101, 5, 2, 10, 0⟩, 21⟩]⟩, ?_,
      fun h => ?_⟩⟩
  · decide +kernel
  · exact absurd h.distinct (by decide)
  · decide +kernel
  · have howned := h.owned _ List.mem_cons_self
    revert howned
    decide
  · decide +kernel
  · exact absurd (h.quantity _ List.mem_cons_self).1 (by decide +kernel)
  · decide +kernel
  · exact absurd (h.subtotal _ List.mem_cons_self) (by decide +kernel)

end Orders
end ERP
