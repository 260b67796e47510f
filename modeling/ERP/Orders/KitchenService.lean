import ERP.Orders.FifoRuns

/-!
# Kitchen actions

`KitchenService`: an action finds the ticket of an order, asks its aggregate for the
next status, lets `KitchenRepository.updateStatus` commit it, reads the ticket again
and publishes its event.  The ticket is read through a filter on the status of the
order, before the transaction and after it.
-/

namespace ERP
namespace Orders

open Inventory Lib.Tx

/-- `KitchenTicketAggregate`, with the fields its actions and events read. -/
structure KitchenTicket where
  id : Id
  salesOrderId : Id
  tenantId : Id
  outletId : Option Id
  items : List (SalesOrderItem × Product)
  status : KitchenStatus
  deriving DecidableEq, Repr

inductive KitchenAction where
  | startCooking | markReady | markServed | cancel | recall
  deriving DecidableEq, Repr

inductive KitchenEventType where
  | cookingStarted | ready | served | cancelled | recalled
  deriving DecidableEq, Repr

structure KitchenEvent where
  type : KitchenEventType
  ticketId : Id
  salesOrderId : Id
  tenantId : Id
  outletId : Option Id
  deriving DecidableEq, Repr

inductive KitchenFailure where
  | ticketNotFound
  | invalidTransition (source target : KitchenStatus)
  | onlyCookingReady
  | onlyReadyServed
  | notPersisted
  | persistence (failure : Failure)
  deriving DecidableEq, Repr

def KitchenStatus.text : KitchenStatus → String
  | .new => "NEW"
  | .queued => "QUEUED"
  | .cooking => "COOKING"
  | .ready => "READY"
  | .served => "SERVED"
  | .cancelled => "CANCELLED"
  | .recalled => "RECALLED"

def KitchenFailure.message : KitchenFailure → String
  | .ticketNotFound => "Kitchen ticket not found"
  | .invalidTransition source target =>
      "Invalid kitchen ticket transition from " ++ source.text ++ " to " ++ target.text
  | .onlyCookingReady => "Only COOKING tickets can be marked READY"
  | .onlyReadyServed => "Only READY tickets can be marked SERVED"
  | .notPersisted => "Failed to persist kitchen ticket"
  | .persistence failure => failure.message

def transitionTo (status next : KitchenStatus) : Except KitchenFailure KitchenStatus :=
  if next ∈ status.next then .ok next else .error (.invalidTransition status next)

namespace KitchenAction

/-- The method of the aggregate that the action calls. -/
def apply (status : KitchenStatus) : KitchenAction → Except KitchenFailure KitchenStatus
  | .startCooking => transitionTo status .cooking
  | .markReady => if status ≠ .cooking then .error .onlyCookingReady else transitionTo status .ready
  | .markServed => if status ≠ .ready then .error .onlyReadyServed else transitionTo status .served
  | .cancel => transitionTo status .cancelled
  | .recall => transitionTo status .recalled

def event : KitchenAction → KitchenEventType
  | .startCooking => .cookingStarted
  | .markReady => .ready
  | .markServed => .served
  | .cancel => .cancelled
  | .recall => .recalled

/-- The status a successful action asks for. -/
def target : KitchenAction → KitchenStatus
  | .startCooking => .cooking
  | .markReady => .ready
  | .markServed => .served
  | .cancel => .cancelled
  | .recall => .recalled

end KitchenAction

def toKitchenTicket (db : DB) (order : SalesOrder) : KitchenTicket where
  id := order.id
  salesOrderId := order.id
  tenantId := order.tenantId
  outletId := order.outletId
  items := orderLines db order
  status := mapOrderStatusToKitchenStatus order.status

/-- The statuses of orders that the kitchen works on. -/
def inKitchen : OrderStatus → Bool
  | .pending | .inProgress | .ready => true
  | _ => false

def findBySalesOrderId (db : DB) (orderId tenantId : Id) (outletId : Option Id) :
    Option KitchenTicket :=
  (db.orders.find? fun row =>
    row.id = orderId ∧ row.tenantId = tenantId ∧ (outletId = none ∨ row.outletId = outletId) ∧
      row.kitchenReleasedAt ≠ none ∧ inKitchen row.status).map (toKitchenTicket db)

/-- What a call of the service leaves: its result, the database and what it has
published. -/
structure KitchenOutcome where
  result : Except KitchenFailure KitchenTicket
  db : DB
  published : List KitchenEvent

def KitchenAction.eventOf (action : KitchenAction) (ticket : KitchenTicket)
    (orderId tenantId : Id) : KitchenEvent :=
  ⟨action.event, ticket.id, orderId, tenantId, ticket.outletId⟩

/-- `startCooking`, `markReady`, `markServed`, `cancel` and `recall` of the service, which
differ in the method of the aggregate and in the event.  The subscriber of the kitchen
events forwards them to sockets and catches what fails there, so publishing succeeds. -/
def performKitchenAction (stamp : Stamp) (action : KitchenAction) (orderId tenantId : Id)
    (outletId : Option Id) (db : DB) : KitchenOutcome :=
  match findBySalesOrderId db orderId tenantId outletId with
  | none => ⟨.error .ticketNotFound, db, []⟩
  | some ticket =>
      match action.apply ticket.status with
      | .error e => ⟨.error e, db, []⟩
      | .ok status =>
          match updateKitchenStatus stamp orderId tenantId outletId status ticket.status db with
          | .error e => ⟨.error (.persistence e), db, []⟩
          | .ok (updated, db') =>
              match if updated then findBySalesOrderId db' orderId tenantId none else none with
              | none => ⟨.error .notPersisted, db', []⟩
              | some persisted => ⟨.ok persisted, db', [action.eventOf ticket orderId tenantId]⟩

/-! ## All or nothing -/

def orderStatus (db : DB) (orderId tenantId : Id) : Option OrderStatus :=
  (findOrder db orderId tenantId).map (·.status)

/-- The reservations of an order, whatever became of them. -/
def reservationsOf (db : DB) (tenantId orderId : Id) : List InventoryMovement :=
  db.movements.filter fun row => row.tenantId = tenantId ∧ row.referenceId = some orderId

/-- The status of the order, its reservations and the stock are as they were. -/
structure Untouched (orderId tenantId : Id) (db db' : DB) : Prop where
  status : orderStatus db' orderId tenantId = orderStatus db orderId tenantId
  reservations : reservationsOf db' tenantId orderId = reservationsOf db tenantId orderId
  stocks : db'.stocks = db.stocks

theorem Untouched.refl (orderId tenantId : Id) (db : DB) : Untouched orderId tenantId db db :=
  ⟨rfl, rfl, rfl⟩

/-- The ticket shows the order as it is in the database. -/
def IsTicketOf (ticket : KitchenTicket) (orderId tenantId : Id) (db : DB) : Prop :=
  ∃ order, findOrder db orderId tenantId = some order ∧ ticket = toKitchenTicket db order

/-- A call that throws has changed nothing; one that has changed something returns the
updated ticket and has published the event of its action. -/
structure AllOrNothing (action : KitchenAction) (orderId tenantId : Id) (db : DB)
    (outcome : KitchenOutcome) : Prop where
  nothing : ∀ e, outcome.result = .error e → Untouched orderId tenantId db outcome.db
  all : ¬ Untouched orderId tenantId db outcome.db →
    ∃ ticket, outcome.result = .ok ticket ∧ IsTicketOf ticket orderId tenantId outcome.db ∧
      ∃ event ∈ outcome.published, event.type = action.event ∧ event.salesOrderId = orderId ∧
        event.tenantId = tenantId

/-- The action takes a ticket in this status out of the kitchen. -/
def KitchenAction.leavesKitchen (action : KitchenAction) (status : KitchenStatus) : Bool :=
  match action, status with
  | .markServed, .ready => true
  | .cancel, .queued => true
  | .cancel, .cooking => true
  | _, _ => false

theorem apply_ok {action : KitchenAction} {status next : KitchenStatus}
    (h : action.apply status = .ok next) : next = action.target ∧ next ∈ status.next := by
  have htransition {target : KitchenStatus} (h : transitionTo status target = .ok next) :
      next = target ∧ next ∈ status.next := by
    unfold transitionTo at h
    split at h
    · rename_i hmem
      cases h
      exact ⟨rfl, hmem⟩
    · cases h
  cases action with
  | markReady =>
      simp only [KitchenAction.apply] at h
      split at h
      · cases h
      · exact htransition h
  | markServed =>
      simp only [KitchenAction.apply] at h
      split at h
      · cases h
      · exact htransition h
  | _ => exact htransition h

/-- From a status that the kitchen works on, an action that is allowed changes the status
of the order, and ends in such a status again unless it leaves the kitchen. -/
theorem apply_status {action : KitchenAction} {next : KitchenStatus} {status : OrderStatus}
    (hin : inKitchen status = true)
    (h : action.apply (mapOrderStatusToKitchenStatus status) = .ok next) :
    mapOrderStatusToKitchenStatus status ≠ .new ∧
      mapKitchenStatusToOrderStatus (mapOrderStatusToKitchenStatus status) = status ∧
      mapKitchenStatusToOrderStatus next ≠ status ∧
      inKitchen (mapKitchenStatusToOrderStatus next) =
        !action.leavesKitchen (mapOrderStatusToKitchenStatus status) := by
  obtain ⟨rfl, hmem⟩ := apply_ok h
  clear h
  revert hin hmem
  cases status with
  | pending => cases action <;> decide
  | inProgress => cases action <;> decide
  | ready => cases action <;> decide
  | paid => exact fun hin => nomatch hin
  | completed => exact fun hin => nomatch hin
  | cancelled => exact fun hin => nomatch hin

/-- Conversely an action that leaves the kitchen is allowed. -/
theorem apply_leaves {action : KitchenAction} {status : KitchenStatus}
    (h : action.leavesKitchen status = true) : action.apply status = .ok action.target := by
  revert h
  cases action <;> cases status <;> decide

section Persisting

variable {stamp : Stamp} {db : DB} {orderId tenantId : Id} {outletId : Option Id}

/-- No two orders have one id. -/
def OrderIdsDistinct (db : DB) : Prop := db.orders.Pairwise fun r s => r.id ≠ s.id

theorem findOrder_spec {order : SalesOrder} (h : findOrder db orderId tenantId = some order) :
    order ∈ db.orders ∧ order.id = orderId ∧ order.tenantId = tenantId := by
  have hfound := List.find?_some h
  simp only [decide_eq_true_eq] at hfound
  exact ⟨List.mem_of_find?_eq_some h, hfound⟩

theorem findOrder_of_mem (hkeyed : OrderIdsDistinct db) {order : SalesOrder}
    (hmem : order ∈ db.orders) :
    findOrder db order.id order.tenantId = some order := by
  have hsome : (findOrder db order.id order.tenantId).isSome :=
    List.find?_isSome.mpr ⟨order, hmem, by simp⟩
  obtain ⟨found, hfound⟩ := Option.isSome_iff_exists.mp hsome
  obtain ⟨hfmem, hid, -⟩ := findOrder_spec hfound
  rw [hfound, Lib.eq_of_key_of_ne hkeyed hfmem hmem hid]

/-- What the ticket of an order says of the order. -/
theorem findBySalesOrderId_spec (hkeyed : OrderIdsDistinct db) {ticket : KitchenTicket}
    (h : findBySalesOrderId db orderId tenantId outletId = some ticket) :
    ∃ order, findOrder db orderId tenantId = some order ∧ ticket = toKitchenTicket db order ∧
      (outletId = none ∨ order.outletId = outletId) ∧ order.kitchenReleasedAt ≠ none ∧
      inKitchen order.status = true := by
  obtain ⟨order, hfind, rfl⟩ := Option.map_eq_some_iff.mp h
  have hfound := List.find?_some hfind
  simp only [decide_eq_true_eq] at hfound
  obtain ⟨rfl, rfl, houtlet, hreleased, hin⟩ := hfound
  exact ⟨order, findOrder_of_mem hkeyed (List.mem_of_find?_eq_some hfind), rfl, houtlet, hreleased,
    hin⟩

/-- The ticket that the service reads after the transaction. -/
theorem findBySalesOrderId_eq (hkeyed : OrderIdsDistinct db) {order : SalesOrder}
    (h : findOrder db orderId tenantId = some order) (hreleased : order.kitchenReleasedAt ≠ none) :
    findBySalesOrderId db orderId tenantId none =
      if inKitchen order.status then some (toKitchenTicket db order) else none := by
  obtain ⟨hmem, hid, htenant⟩ := findOrder_spec h
  by_cases hin : inKitchen order.status = true
  · have hsome : (findBySalesOrderId db orderId tenantId none).isSome := by
      rw [findBySalesOrderId, Option.isSome_map]
      exact List.find?_isSome.mpr ⟨order, hmem, by simp [hid, htenant, hreleased, hin]⟩
    obtain ⟨ticket, hticket⟩ := Option.isSome_iff_exists.mp hsome
    obtain ⟨found, hfound, rfl, -⟩ := findBySalesOrderId_spec hkeyed hticket
    rw [h] at hfound
    cases hfound
    rw [hticket, if_pos hin]
  · rw [if_neg hin]
    cases hticket : findBySalesOrderId db orderId tenantId none with
    | none => rfl
    | some ticket =>
        obtain ⟨found, hfound, -, -, -, hfin⟩ := findBySalesOrderId_spec hkeyed hticket
        rw [h] at hfound
        cases hfound
        exact absurd hfin hin

/-- An update that one order meets updates that order. -/
theorem findOrder_updateOrders (hkeyed : OrderIdsDistinct db) {order : SalesOrder}
    {p : SalesOrder → Bool} {f : SalesOrder → SalesOrder}
    (hf : ∀ row, (f row).id = row.id ∧ (f row).tenantId = row.tenantId)
    (h : findOrder db orderId tenantId = some order) (hp : p order = true) :
    OrderIdsDistinct (db.updateOrders p f) ∧
      findOrder (db.updateOrders p f) orderId tenantId = some (f order) := by
  have hkey (row : SalesOrder) : (if p row then f row else row).id = row.id := by
    split
    · exact (hf row).1
    · rfl
  have hkeyed' : OrderIdsDistinct (db.updateOrders p f) := by
    show (db.orders.map fun row => if p row then f row else row).Pairwise _
    rw [List.pairwise_map]
    refine hkeyed.imp fun hne => ?_
    rw [hkey, hkey]
    exact hne
  obtain ⟨hmem, hid, htenant⟩ := findOrder_spec h
  have hmem' : f order ∈ (db.updateOrders p f).orders := by
    refine List.mem_map.mpr ⟨order, hmem, ?_⟩
    rw [if_pos hp]
  have hfound := findOrder_of_mem hkeyed' hmem'
  rw [(hf order).1, (hf order).2, hid, htenant] at hfound
  exact ⟨hkeyed', hfound⟩

theorem countP_order (hkeyed : OrderIdsDistinct db) {order : SalesOrder} {p : SalesOrder → Bool}
    (hmem : order ∈ db.orders) (hp : p order = true)
    (honly : ∀ row, p row = true → row.id = order.id) :
    db.orders.countP p = 1 := by
  have hsame : db.orders.countP p = db.orders.countP fun row => row = order := by
    refine List.countP_congr fun row hrow => ?_
    rw [decide_eq_true_eq]
    constructor
    · exact fun hprow => Lib.eq_of_key_of_ne hkeyed hrow hmem (honly row hprow)
    · rintro rfl
      exact hp
  have hnodup : db.orders.Nodup := hkeyed.imp fun hne heq => hne (congrArg SalesOrder.id heq)
  have hcount : db.orders.count order = 1 := List.count_eq_one_of_mem hnodup hmem
  rw [hsame, ← hcount]
  exact List.countP_congr fun row _ => by simp

/-! ### What the transaction does to the orders -/

theorem issue_orders {input : IssueInput} (hq : 0 ≤ input.quantity) :
    Post (issue stamp input) db (fun _ db' => db'.orders = db.orders) fun _ => True :=
  issue_post (fun _ _ => trivial) hq (fun _ => trivial) fun _ db' hissued => by
    have horders := congrArg DB.orders hissued.costed.outside
    exact horders

theorem costKitchenReservation_orders {r : InventoryMovement} {rest : List InventoryMovement}
    (hs : Sound ⟨db, r :: rest⟩) :
    Post (costKitchenReservation stamp tenantId r.id) db (fun _ db' => db'.orders = db.orders)
      fun _ => True := by
  have hclaimed := hs.pending r List.mem_cons_self
  have hnone := allocationsOf_eq_nil hclaimed.uncharged
  unfold costKitchenReservation
  simp only [post_bind, post_get, hnone, List.length_nil, if_true, post_pure]
  refine post_expect.mpr ⟨fun m hm => ?_, fun _ => trivial⟩
  obtain ⟨m', hm', hid', -, -, -, hq, -⟩ := hclaimed.row
  have hmid : m.id = r.id := by simpa using List.find?_some hm
  have heq : m = m' := hs.movementIds.eq_of_key (List.mem_of_find?_eq_some hm) hm'
    (hmid.trans hid'.symm)
  have hpos : 0 ≤ m.quantity := by
    rw [heq, hq]
    exact le_of_lt hclaimed.quantity_pos
  exact issue_orders hpos

/-- Charging the reservations that were claimed leaves the orders alone. -/
theorem commitKitchenReservation_orders (hs : Sound ⟨db, []⟩) :
    Post (commitKitchenReservation stamp tenantId orderId) db (fun _ db' => db'.orders = db.orders)
      fun _ => True := by
  unfold commitKitchenReservation
  simp only [post_bind, post_get]
  by_cases hnil : activeReservations db tenantId orderId = []
  · simp only [hnil, if_true, post_pure]
  · simp only [hnil, if_false, post_bind]
    have hclaim : Post (claimReservations (activeReservations db tenantId orderId) fun row =>
        { row with referenceType := some .orderReservationCommitted, type := .consumption }) db
        (fun _ db' => Run stamp .all ⟨db, []⟩ ⟨db', activeReservations db tenantId orderId⟩)
        fun _ => True :=
      claimReservations_post stamp trivial hs activeReservations_active (fun m => by simp)
        (fun m => ⟨_, _, rfl⟩) fun db₁ hrun => hrun
    refine (hclaim.and (claimReservations_orders (E := fun _ => True))).mono
      (fun n db₁ h => ?_) fun _ _ => trivial
    obtain ⟨hrun, horders⟩ := h
    refine post_require.mpr ⟨fun _ => ?_, fun _ => trivial⟩
    refine (post_forM (E := fun _ => True)
      (fun rest db' => Run stamp .all ⟨db, []⟩ ⟨db', rest⟩ ∧ db'.orders = db.orders) _
      (fun r rest db' _ hI => ?_) ⟨hrun, horders⟩).mono (fun _ _ hI => hI.2) fun _ _ => trivial
    have hcost : Post (costKitchenReservation stamp tenantId r.id) db'
        (fun _ db'' => Run stamp .all ⟨db, []⟩ ⟨db'', rest⟩)
        (Stuck stamp .all ⟨db, []⟩ fun _ => True) :=
      costKitchenReservation_post hs hI.1 trivial trivial fun _ hrun' => hrun'
    exact (hcost.and (costKitchenReservation_orders (hs.run hI.1))).mono
      (fun _ db'' h => ⟨h.1, h.2.trans hI.2⟩) fun _ _ => trivial

theorem releaseReservation_orders (hs : Sound ⟨db, []⟩) :
    Post (ReservationService.releaseReservation stamp orderId tenantId) db
      (fun _ db' => db'.orders = db.orders) fun _ => False := by
  unfold ReservationService.releaseReservation
  simp only [post_bind, post_get]
  exact giveBack_post (A := .all) (Q := fun _ db' => db'.orders = db.orders) hs trivial
    activeReservations_active (by decide) rfl fun _ _ horders => horders

/-- The transaction of an action on the ticket of an order: only cooking can fail, and
what it commits is the new status of the order. -/
theorem updateKitchenStatus_post (hs : Sound ⟨db, []⟩) (hkeyed : OrderIdsDistinct db)
    {order : SalesOrder} {status : KitchenStatus}
    (horder : findOrder db orderId tenantId = some order)
    (houtlet : outletId = none ∨ order.outletId = outletId)
    (hreleased : order.kitchenReleasedAt ≠ none)
    (hsame : mapKitchenStatusToOrderStatus (mapOrderStatusToKitchenStatus order.status) =
      order.status) :
    Post (updateKitchenStatus stamp orderId tenantId outletId status
        (mapOrderStatusToKitchenStatus order.status)) db
      (fun updated db' => updated = true ∧ OrderIdsDistinct db' ∧ findOrder db' orderId tenantId =
        some { order with status := mapKitchenStatusToOrderStatus status })
      (fun _ => status = .cooking) := by
  obtain ⟨hmem, hid, htenant⟩ := findOrder_spec horder
  let p : SalesOrder → Bool := fun row =>
    row.id = orderId ∧ row.tenantId = tenantId ∧ (outletId = none ∨ row.outletId = outletId) ∧
      row.status = mapKitchenStatusToOrderStatus (mapOrderStatusToKitchenStatus order.status) ∧
      row.kitchenReleasedAt ≠ none
  let f : SalesOrder → SalesOrder := fun row =>
    { row with status := mapKitchenStatusToOrderStatus status }
  have hp : p order = true := decide_eq_true ⟨hid, htenant, houtlet, hsame.symm, hreleased⟩
  have hcount : db.orders.countP p = 1 := countP_order hkeyed hmem hp fun row hrow => by
    have hrow' := of_decide_eq_true hrow
    exact hrow'.1.trans hid.symm
  obtain ⟨hkeyed', hfound⟩ :=
    findOrder_updateOrders (p := p) (f := f) hkeyed (fun row => ⟨rfl, rfl⟩) horder hp
  have hsound : Sound ⟨db.updateOrders p f, []⟩ :=
    hs.sameLedger ⟨rfl, rfl, rfl, rfl, rfl, le_refl _⟩ fun hl => Sound.lines_mono hl rfl (le_refl _)
  have hkeeps {db' : DB} (h : db'.orders = (db.updateOrders p f).orders) :
      OrderIdsDistinct db' ∧ findOrder db' orderId tenantId = some (f order) := by
    unfold OrderIdsDistinct findOrder
    rw [h]
    exact ⟨hkeyed', hfound⟩
  unfold updateKitchenStatus
  simp only [post_bind, post_get, post_set]
  show Post (if db.orders.countP p ≠ 1 then _ else _) (db.updateOrders p f) _ _
  rw [if_neg (not_not.mpr hcount)]
  by_cases hcancel : status = .cancelled
  · rw [if_pos hcancel, post_bind]
    exact (releaseReservation_orders hsound).mono (fun _ _ horders => ⟨rfl, hkeeps horders⟩)
      fun _ he => he.elim
  · rw [if_neg hcancel]
    by_cases hcooking : status = .cooking
    · rw [if_pos hcooking, post_bind]
      exact (commitKitchenReservation_orders hsound).mono
        (fun _ _ horders => ⟨rfl, hkeeps horders⟩) fun _ _ => hcooking
    · rw [if_neg hcooking]
      exact ⟨rfl, hkeeps rfl⟩

/-- The outcome of an action, case by case. -/
theorem performKitchenAction_cases (stamp : Stamp) (outletId : Option Id) (hs : Sound ⟨db, []⟩)
    (hkeyed : OrderIdsDistinct db)
    (action : KitchenAction) :
    (∃ e, performKitchenAction stamp action orderId tenantId outletId db = ⟨.error e, db, []⟩ ∧
      ∀ ticket, findBySalesOrderId db orderId tenantId outletId = some ticket →
        action.leavesKitchen ticket.status = false) ∨
    ∃ ticket order db', findBySalesOrderId db orderId tenantId outletId = some ticket ∧
      orderStatus db orderId tenantId ≠ some order.status ∧
      findOrder db' orderId tenantId = some order ∧
      performKitchenAction stamp action orderId tenantId outletId db =
        if action.leavesKitchen ticket.status then ⟨.error .notPersisted, db', []⟩
        else ⟨.ok (toKitchenTicket db' order), db', [action.eventOf ticket orderId tenantId]⟩ := by
  unfold performKitchenAction
  cases hticket : findBySalesOrderId db orderId tenantId outletId with
  | none => exact .inl ⟨_, rfl, fun ticket h => nomatch h⟩
  | some ticket =>
      obtain ⟨order, horder, rfl, houtlet, hreleased, hin⟩ := findBySalesOrderId_spec hkeyed hticket
      cases happly : action.apply (toKitchenTicket db order).status with
      | error e =>
          refine .inl ⟨e, by simp only [happly], fun ticket h => ?_⟩
          cases h
          rw [Bool.eq_false_iff]
          intro hleaves
          rw [apply_leaves hleaves] at happly
          cases happly
      | ok next =>
          obtain ⟨-, hsame, hchange, hstays⟩ := apply_status hin happly
          have hpost : Post (updateKitchenStatus stamp orderId tenantId outletId next
              (toKitchenTicket db order).status) db _ _ :=
            updateKitchenStatus_post hs hkeyed horder houtlet hreleased hsame
          cases hupdate : updateKitchenStatus stamp orderId tenantId outletId next
              (toKitchenTicket db order).status db with
          | error e =>
              have hcooking : next = .cooking := hpost.of_error hupdate
              refine .inl ⟨.persistence e, by simp only [happly, hupdate], fun ticket h => ?_⟩
              cases h
              rw [hcooking] at hstays
              exact (Bool.not_eq_true' _).mp hstays.symm
          | ok result =>
              obtain ⟨updated, db'⟩ := result
              obtain ⟨rfl, hkeyed', hfound⟩ := hpost.of_ok hupdate
              refine .inr ⟨_, _, db', rfl, ?_, hfound, ?_⟩
              · rw [orderStatus, horder]
                exact fun heq => hchange (Option.some.inj heq).symm
              · have hreload := findBySalesOrderId_eq hkeyed' hfound hreleased
                simp only [happly, hupdate, if_true, hreload, hstays]
                by_cases hleaves : action.leavesKitchen (toKitchenTicket db order).status = true
                · have hleaves' : action.leavesKitchen
                    (mapOrderStatusToKitchenStatus order.status) = true := hleaves
                  simp only [hleaves, hleaves', Bool.not_true, if_true,
                    Bool.false_eq_true, if_false]
                · have hstays' : action.leavesKitchen (toKitchenTicket db order).status = false :=
                    Bool.not_eq_true _ ▸ hleaves
                  have hstays'' : action.leavesKitchen
                    (mapOrderStatusToKitchenStatus order.status) = false := hstays'
                  simp only [hstays', hstays'', Bool.not_false, if_true, Bool.false_eq_true,
                    if_false]

end Persisting

/-- An action on an order of any state that a run reaches is all or nothing if and only
if it does not take the ticket out of the kitchen. -/
theorem kitchen_action_all_or_nothing_iff (stamp : Stamp) (rt : TransferRuntime) (db₀ : DB)
    (hs : Sound ⟨db₀, []⟩) (ops : List Operation)
    (hkeyed : OrderIdsDistinct (runAll stamp rt ops db₀)) (action : KitchenAction)
    (orderId tenantId : Id) (outletId : Option Id) :
    AllOrNothing action orderId tenantId (runAll stamp rt ops db₀)
        (performKitchenAction stamp action orderId tenantId outletId (runAll stamp rt ops db₀)) ↔
      ∀ ticket, findBySalesOrderId (runAll stamp rt ops db₀) orderId tenantId
      outletId = some ticket →
        action.leavesKitchen ticket.status = false := by
  have hsound : Sound ⟨runAll stamp rt ops db₀, []⟩ := hs.run (runAll_refines stamp rt hs ops)
  generalize runAll stamp rt ops db₀ = db at hkeyed hsound ⊢
  obtain ⟨e, houtcome, hstays⟩ | ⟨ticket, order, db', hticket, hchange, hfound, houtcome⟩ :=
    performKitchenAction_cases stamp outletId hsound hkeyed action
  · rw [houtcome]
    refine iff_of_true ⟨fun _ _ => .refl orderId tenantId db, fun h => ?_⟩ hstays
    exact absurd (Untouched.refl orderId tenantId db) h
  · rw [houtcome]
    have hchanged : ¬ Untouched orderId tenantId db db' := by
      intro h
      refine hchange (h.status.symm.trans ?_)
      rw [orderStatus, hfound]
      rfl
    by_cases hleaves : action.leavesKitchen ticket.status = true
    · rw [if_pos hleaves]
      refine iff_of_false (fun h => hchanged (h.nothing _ rfl)) fun h => ?_
      rw [h ticket hticket] at hleaves
      cases hleaves
    · rw [if_neg hleaves]
      refine iff_of_true ⟨fun e he => ?_, fun _ => ?_⟩ fun found hfind => ?_
      · cases he
      · exact ⟨_, rfl, ⟨order, hfound, rfl⟩, _, List.mem_singleton_self _, rfl, rfl, rfl⟩
      · rw [hticket] at hfind
        cases hfind
        exact Bool.not_eq_true _ ▸ hleaves

/-- A cafe with one order in the kitchen, in the given status. -/
def oneTicket (status : OrderStatus) : DB :=
  opening 1 []
    { tenants := [⟨1, .cafe⟩], warehouses := [], products := []
      orders := [⟨1, 1, none, status, .regular, .paid, 10, 10, some 0, [⟨1, 2, Nat.two_pos⟩]⟩]
      purchaseOrders := [] }

theorem oneTicket_sound (status : OrderStatus) : Sound ⟨oneTicket status, []⟩ :=
  sound_opening ⟨List.Pairwise.nil, fun _ h => nomatch h⟩

theorem kitchen_action_all_or_nothing_example :
    AllOrNothing .startCooking 1 1 (runAll .sequential .plain [] (oneTicket .pending))
      (performKitchenAction .sequential .startCooking 1 1 none
        (runAll .sequential .plain [] (oneTicket .pending))) :=
  (kitchen_action_all_or_nothing_iff .sequential .plain (oneTicket .pending)
    (oneTicket_sound .pending) [] (List.pairwise_singleton _ _) .startCooking 1 1 none).mpr
    fun ticket h => by
      have hqueued : (findBySalesOrderId (oneTicket .pending) 1 1 none).map (·.status) =
          some .queued := by decide +kernel
      have hstatus := (congrArg (Option.map KitchenTicket.status) h).symm.trans hqueued
      rw [Option.some.inj hstatus]
      rfl

/-- Serving a ticket completes its order, finds it no more and throws. -/
theorem serving_throws_after_commit :
    ¬ AllOrNothing .markServed 1 1 (oneTicket .ready)
      (performKitchenAction .sequential .markServed 1 1 none (oneTicket .ready)) := by
  intro h
  have hresult : (performKitchenAction .sequential .markServed 1 1 none (oneTicket .ready)).result =
      .error .notPersisted := by decide +kernel
  have hcompleted : orderStatus
      (performKitchenAction .sequential .markServed 1 1 none (oneTicket .ready)).db 1 1 =
        some .completed := by decide +kernel
  have hready : orderStatus (oneTicket .ready) 1 1 = some .ready := by decide +kernel
  have hstatus := (h.nothing _ hresult).status
  rw [hcompleted, hready] at hstatus
  cases hstatus

end Orders
end ERP
