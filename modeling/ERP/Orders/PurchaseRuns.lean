import ERP.Inventory.PurchaseReceipts
import ERP.Orders.FifoRuns

/-!
# Runs of purchase order receipts

Any calls of `receivePurchaseOrder`, each one transaction under the lock of the
order's row, in the order in which they commit or roll back.
-/

namespace ERP
namespace Orders

open Inventory Lib.Tx

/-- A call of `receivePurchaseOrder`. -/
structure ReceiptCall where
  tenantId : Id
  purchaseOrderId : Id
  idempotencyKey : String
  dto : ReceiptDto
  deriving DecidableEq, Repr

def ReceiptCall.exec (stamp : Stamp) (rt : TransferRuntime) (call : ReceiptCall) :
    Tx PurchaseOrderReceipt :=
  receivePurchaseOrder stamp unrounded rt.localeLE rt.receiptHash call.tenantId call.purchaseOrderId
    call.idempotencyKey call.dto

/-- The request a call makes once its checks are passed. -/
def ReceiptCall.request (rt : TransferRuntime) (call : ReceiptCall) : Except Failure ReceiptDto :=
  normalizePurchaseReceipt rt.localeLE call.idempotencyKey call.dto

/-- The transactions of the calls in the order in which they commit or roll back. -/
def receiveAll (stamp : Stamp) (rt : TransferRuntime) (calls : List ReceiptCall) (db : DB) : DB :=
  calls.foldl (fun db call => commit (call.exec stamp rt) db) db

section Runs

variable {stamp : Stamp} {rt : TransferRuntime} {db db' start : DB} {call : ReceiptCall}
  {receipt : PurchaseOrderReceipt}

/-- The database between two transactions of a run. -/
structure Between (start db : DB) : Prop where
  sound : Sound ⟨db, []⟩
  kept : Receiving start (fun _ _ => 0) db

/-- The order a call names is there. -/
def ReceiptCall.HasOrder (call : ReceiptCall) (db : DB) : Prop :=
  ∃ po ∈ db.purchaseOrders, po.id = call.purchaseOrderId ∧ po.tenantId = call.tenantId

/-- What an accepted call did. -/
structure CallAccepted (rt : TransferRuntime) (start : DB) (call : ReceiptCall) (db : DB)
    (receipt : PurchaseOrderReceipt) (db' : DB) : Prop where
  order : call.HasOrder db
  accepted : ∃ request, call.request rt = .ok request ∧
    AcceptedReceipt rt start call.purchaseOrderId call.idempotencyKey request db receipt db'
  between : Between start db'

theorem call_accepted (hopen : Unreceived start) (h : Between start db)
    (hexec : call.exec stamp rt db = .ok (receipt, db')) :
    CallAccepted rt start call db receipt db' := by
  unfold ReceiptCall.exec receivePurchaseOrder at hexec
  cases hrequest : normalizePurchaseReceipt rt.localeLE call.idempotencyKey call.dto with
  | error e =>
      rw [hrequest] at hexec
      cases hexec
  | ok request =>
      rw [hrequest] at hexec
      obtain ⟨hitems, hnodup⟩ := normalizePurchaseReceipt_ok hrequest
      obtain ⟨horder, haccepted⟩ :=
        (receivePurchaseRequest_effect hopen h.sound h.kept hitems hnodup).of_ok hexec
      have hrefines : Refines stamp .all (fun _ => True) (receivePurchaseRequest stamp
          unrounded rt.receiptHash call.tenantId call.purchaseOrderId call.idempotencyKey
          request) db :=
        receivePurchaseRequest_refines hitems fun _ _ => trivial
      refine ⟨horder, ⟨request, hrequest, haccepted⟩, h.sound.run (hrefines.of_ok hexec), ?_⟩
      cases haccepted with
      | replay _ _ => exact h.kept
      | receive _ hkept _ _ _ _ => exact hkept

theorem Between.commit (hopen : Unreceived start) (h : Between start db) (call : ReceiptCall) :
    Between start (commit (call.exec stamp rt) db) := by
  cases hexec : call.exec stamp rt db with
  | error e =>
      rw [commit_of_error hexec]
      exact h
  | ok p =>
      rw [commit_of_ok hexec]
      exact (call_accepted hopen h hexec).between

theorem Between.receiveAll (hopen : Unreceived start) (h : Between start db)
    (calls : List ReceiptCall) : Between start (receiveAll stamp rt calls db) := by
  induction calls generalizing db with
  | nil => exact h
  | cons call rest ih => exact ih (h.commit hopen call)

theorem between_start (hs : Sound ⟨start, []⟩) (hopen : Unreceived start) :
    Between start start := by
  have hzero : ∀ weight, receivedSum weight start = 0 := by
    intro weight
    refine List.sum_eq_zero fun x hx => ?_
    obtain ⟨po, hpo, rfl⟩ := List.mem_map.mp hx
    refine List.sum_eq_zero fun y hy => ?_
    obtain ⟨l, hl, rfl⟩ := List.mem_map.mp hy
    rw [(hopen.lines po hpo l hl).2, mul_zero]
  refine ⟨hs, rfl, sameItems_refl, fun po hpo l hl => ?_, fun po hpo l hl => ?_, fun w i => ?_,
    fun i standardCost _ => ?_⟩
  · rw [(hopen.lines po hpo l hl).2, hopen.receipts, add_zero]
    rfl
  · obtain ⟨hpos, hreceived⟩ := hopen.lines po hpo l hl
    rw [hreceived]
    exact le_of_lt hpos
  · rw [receivedInto, hzero, add_zero]
  · unfold receivedOf receivedPrice varianceSum
    rw [hzero, hzero, hopen.variances]
    simp

/-- The key of a call is taken by a receipt. -/
structure Held (call : ReceiptCall) (receipt : PurchaseOrderReceipt) (db : DB) : Prop where
  order : call.HasOrder db
  found : findPurchaseReceipt db call.purchaseOrderId call.idempotencyKey = some receipt

theorem hasOrder_of_kept (h : Receiving start (fun _ _ => 0) db)
    (h' : Receiving start (fun _ _ => 0) db') (horder : call.HasOrder db) : call.HasOrder db' := by
  obtain ⟨po, hpo, hid, htenant⟩ := horder
  obtain ⟨row, hrow, hkey⟩ := exists_of_orderKey (h.orders.trans h'.orders.symm) hpo
  simp only [orderKey, Prod.mk.injEq] at hkey
  exact ⟨row, hrow, hkey.1.trans hid, hkey.2.1.trans htenant⟩

/-- An accepted call leaves the receipt it returns under its key. -/
theorem CallAccepted.held (h : Between start db)
    (haccepted : CallAccepted rt start call db receipt db') : Held call receipt db' := by
  refine ⟨hasOrder_of_kept h.kept haccepted.between.kept haccepted.order, ?_⟩
  obtain ⟨request, -, houtcome⟩ := haccepted.accepted
  cases houtcome with
  | replay hfound _ => exact hfound
  | receive hnew _ hreceipts hkey _ _ =>
      unfold findPurchaseReceipt at hnew ⊢
      rw [hreceipts, List.find?_append, hnew]
      simp [hkey]

/-- A receipt stays where it is. -/
theorem Held.commit (hopen : Unreceived start) (hbetween : Between start db)
    (h : Held call receipt db) (other : ReceiptCall) :
    Held call receipt (commit (other.exec stamp rt) db) := by
  cases hexec : other.exec stamp rt db with
  | error e =>
      rw [commit_of_error hexec]
      exact h
  | ok p =>
      rw [commit_of_ok hexec]
      have haccepted := call_accepted hopen hbetween hexec
      refine ⟨hasOrder_of_kept hbetween.kept haccepted.between.kept h.order, ?_⟩
      obtain ⟨request, -, houtcome⟩ := haccepted.accepted
      have happend : ∃ more, p.2.purchaseReceipts = db.purchaseReceipts ++ more := by
        cases houtcome with
        | replay _ _ => exact ⟨[], (List.append_nil _).symm⟩
        | receive _ _ hreceipts _ _ _ => exact ⟨_, hreceipts⟩
      obtain ⟨more, hmore⟩ := happend
      have hfound := h.found
      unfold findPurchaseReceipt at hfound ⊢
      rw [hmore, List.find?_append, hfound]
      rfl

theorem Held.receiveAll (hopen : Unreceived start) (hbetween : Between start db)
    (h : Held call receipt db) (calls : List ReceiptCall) :
    Held call receipt (receiveAll stamp rt calls db) := by
  induction calls generalizing db with
  | nil => exact h
  | cons other rest ih => exact ih (hbetween.commit hopen other) (h.commit hopen hbetween other)

/-- A call whose key is taken is answered from the receipt. -/
theorem Held.exec {request : ReceiptDto} (h : Held call receipt db)
    (hrequest : call.request rt = .ok request) :
    call.exec stamp rt db =
      if receipt.requestHash = rt.receiptHash request then .ok (receipt, db)
      else .error .purchaseReceiptKeyReused := by
  obtain ⟨po, hpo, hid, htenant⟩ := h.order
  have hsome : (db.purchaseOrders.find? fun row =>
      row.id = call.purchaseOrderId ∧ row.tenantId = call.tenantId).isSome :=
    List.find?_isSome.mpr ⟨po, hpo, by simp [hid, htenant]⟩
  obtain ⟨row, hrow⟩ := Option.isSome_iff_exists.mp hsome
  have hfound := h.found
  unfold findPurchaseReceipt at hfound
  unfold ReceiptCall.request at hrequest
  unfold ReceiptCall.exec receivePurchaseOrder
  rw [hrequest]
  unfold receivePurchaseRequest
  split
  · rename_i hhash
    refine Post.eq_ok ?_
    simp only [post_bind, post_get, hrow, hfound, post_expect, post_require, post_pure]
    simp [hhash]
  · rename_i hhash
    refine Post.eq_error ?_
    simp only [post_bind, post_get, hrow, hfound, post_expect, post_require, post_pure]
    simp [hhash]

/-- What a call does to the database it finds: a new receipt gives its order the
status of its lines, and a rejected call changes nothing. -/
structure CallKept (stamp : Stamp) (rt : TransferRuntime) (call : ReceiptCall) (db : DB) :
    Prop where
  status : ∀ receipt db', call.exec stamp rt db = .ok (receipt, db') →
    receipt ∉ db.purchaseReceipts → ∀ po ∈ db'.purchaseOrders, po.id = call.purchaseOrderId →
      po.status = receivedStatus po
  rejected : ∀ failure, call.exec stamp rt db = .error failure →
    commit (call.exec stamp rt) db = db

/-- What a later call with the key of an accepted one gets: the same receipt and no
change for the same request, a conflict for another. -/
structure KeyKept (stamp : Stamp) (rt : TransferRuntime) (call later : ReceiptCall)
    (receipt : PurchaseOrderReceipt) (db : DB) : Prop where
  same : later.request rt = call.request rt → later.exec stamp rt db = .ok (receipt, db)
  other : ∀ request, later.request rt = .ok request → later.request rt ≠ call.request rt →
    later.exec stamp rt db = .error .purchaseReceiptKeyReused

theorem callKept (hopen : Unreceived start) (h : Between start db) (call : ReceiptCall) :
    CallKept stamp rt call db := by
  refine ⟨fun receipt db' hexec hnew => ?_, fun failure hexec => commit_of_error hexec⟩
  obtain ⟨request, -, houtcome⟩ := (call_accepted hopen h hexec).accepted
  cases houtcome with
  | replay hfound _ => exact absurd (List.mem_of_find?_eq_some hfound) hnew
  | receive _ _ _ _ _ hstatus => exact hstatus

theorem keyKept {later : ReceiptCall} {now : DB}
    (hhash : ∀ request request', call.request rt = .ok request → later.request rt = .ok request' →
      rt.receiptHash request = rt.receiptHash request' → request = request')
    (haccepted : CallAccepted rt start call db receipt db') (hheld : Held later receipt now) :
    KeyKept stamp rt call later receipt now := by
  obtain ⟨request, hrequest, houtcome⟩ := haccepted.accepted
  refine ⟨fun hsame => ?_, fun request' hrequest' hne => ?_⟩
  · rw [hheld.exec (hsame.trans hrequest), if_pos houtcome.hash]
  · rw [hheld.exec hrequest', if_neg fun heq => ?_]
    have hsame := hhash request request' hrequest hrequest' (houtcome.hash.symm.trans heq)
    exact hne (hrequest'.trans (hsame ▸ hrequest.symm))

/-- The run of any calls on orders nothing was received on. -/
theorem purchase_receipts_kept (hs : Sound ⟨db, []⟩) (hopen : Unreceived db)
    (calls : List ReceiptCall)
    (hhash : ∀ a ∈ calls, ∀ b ∈ calls, ∀ request request', a.request rt = .ok request →
      b.request rt = .ok request' → rt.receiptHash request = rt.receiptHash request' →
      request = request') :
    ReceiptsKept db (receiveAll stamp rt calls db) ∧
    (∀ before call after, calls = before ++ call :: after →
      CallKept stamp rt call (receiveAll stamp rt before db)) ∧
    ∀ before call between later after, calls = before ++ call :: (between ++ later :: after) →
      later.tenantId = call.tenantId → later.purchaseOrderId = call.purchaseOrderId →
      later.idempotencyKey = call.idempotencyKey →
      ∀ receipt db', call.exec stamp rt (receiveAll stamp rt before db) = .ok (receipt, db') →
        KeyKept stamp rt call later receipt
          (receiveAll stamp rt (before ++ call :: between) db) := by
  have hat : ∀ calls, Between db (receiveAll stamp rt calls db) :=
    fun calls => (between_start hs hopen).receiveAll hopen calls
  refine ⟨(hat calls).kept.receiptsKept, fun before call after _ => ?_,
    fun before call between later after hcalls htenant horder hkey receipt db' hexec => ?_⟩
  · exact callKept hopen (hat before) call
  · have haccepted := call_accepted hopen (hat before) hexec
    have hheld := haccepted.held (hat before)
    have hlater : Held later receipt db' := by
      refine ⟨?_, ?_⟩
      · unfold ReceiptCall.HasOrder
        rw [htenant, horder]
        exact hheld.order
      · rw [horder, hkey]
        exact hheld.found
    have hnow : Held later receipt (receiveAll stamp rt between db') :=
      hlater.receiveAll hopen haccepted.between between
    have hrun : receiveAll stamp rt (before ++ call :: between) db =
        receiveAll stamp rt between db' := by
      unfold receiveAll
      rw [List.foldl_append, List.foldl_cons]
      congr 1
      exact commit_of_ok hexec
    rw [hrun]
    refine keyKept (hhash call ?_ later ?_) haccepted hnow
    · simp [hcalls]
    · simp [hcalls]

end Runs

/-- Item 0 of tenant 1, valued at a standard cost of 3, and an approved order for ten
of it at 5 and four of it at 2. -/
def standardOpening : DB :=
  opening 8
    [{ id := 0, tenantId := 1, name := "cups", valuationMethod := some .standardCost,
       movingAverageScope := none, standardCost := some 3, averageUnitCost := none,
       valuationLockedAt := none }]
    { tenants := [⟨1, .retail⟩], warehouses := [⟨2, 1, none, true⟩], products := [], orders := [],
      suppliers := [⟨7, 1, true⟩]
      purchaseOrders :=
        [{ id := 3, tenantId := 1, supplierId := 7, warehouseId := some 2, status := .approved,
           totalAmount := 58, items := [⟨4, 0, 10, 5, 0⟩, ⟨5, 0, 4, 2, 0⟩] }] }

/-- A runtime whose digest of a receipt request is the ids of its items. -/
def idsRuntime : TransferRuntime where
  localeLE := fun a b => a ≤ b
  transferHash := fun _ => ""
  receiptHash := fun dto => String.join (dto.items.map (·.itemId))

/-- Ten of the first line, the same again, and the second line under the same key. -/
def tenTwiceThenOther : List ReceiptCall :=
  [⟨1, 3, "k", ⟨[⟨"cccc", 10⟩], none⟩⟩, ⟨1, 3, "k", ⟨[⟨"cccc", 10⟩], none⟩⟩,
    ⟨1, 3, "k", ⟨[⟨"ccccc", 4⟩], none⟩⟩]

theorem tenTwiceThenOther_hash : ∀ a ∈ tenTwiceThenOther, ∀ b ∈ tenTwiceThenOther,
    ∀ request request', a.request idsRuntime = .ok request → b.request idsRuntime = .ok request' →
      idsRuntime.receiptHash request = idsRuntime.receiptHash request' → request = request' := by
  have hten : ∀ a ∈ tenTwiceThenOther, a.request idsRuntime = .ok ⟨[⟨"cccc", 10⟩], none⟩ ∨
      a.request idsRuntime = .ok ⟨[⟨"ccccc", 4⟩], none⟩ := by decide +kernel
  have hne : idsRuntime.receiptHash ⟨[⟨"cccc", 10⟩], none⟩ ≠
      idsRuntime.receiptHash ⟨[⟨"ccccc", 4⟩], none⟩ := by decide +kernel
  intro a ha b hb request request' hrequest hrequest' hhash
  rcases hten a ha with h | h <;> rcases hten b hb with h' | h' <;>
    cases hrequest.symm.trans h <;> cases hrequest'.symm.trans h'
  · rfl
  · exact absurd hhash hne
  · exact absurd hhash.symm hne
  · rfl

theorem purchase_receipts_kept_example :
    ReceiptsKept standardOpening
      (receiveAll .sequential idsRuntime tenTwiceThenOther standardOpening) ∧
    receivedOf (receiveAll .sequential idsRuntime tenTwiceThenOther standardOpening) 0 = 10 ∧
    varianceSum (receiveAll .sequential idsRuntime tenTwiceThenOther standardOpening) 0 = 20 := by
  have hs : Sound ⟨standardOpening, []⟩ := sound_opening ⟨by decide, by decide⟩
  have hopen : Unreceived standardOpening :=
    ⟨by decide, by decide, by decide +kernel, rfl, rfl⟩
  exact ⟨(purchase_receipts_kept hs hopen tenTwiceThenOther tenTwiceThenOther_hash).1,
    by decide +kernel, by decide +kernel⟩

end Orders
end ERP
