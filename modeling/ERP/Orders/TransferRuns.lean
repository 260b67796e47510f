import ERP.Inventory.TransferKept
import ERP.Orders.DivisorRuns

/-!
# The transfers over whole runs

Whatever the operations are and however they end, the books of the transfers are kept: what
leaves one warehouse is under way until it arrives at the other, a transfer takes its lines
from the stock once, and its lines have received what its receipts say.
-/

namespace ERP
namespace Orders

open Inventory Lib.Tx

section Operations

variable {stamp : Stamp} {rt : TransferRuntime} {db : DB}

/-- The operation is one of the transfer service. -/
def Operation.OfTransfers : Operation → Prop
  | .createTransfer _ _ _ | .shipTransfer _ _ | .receiveTransfer _ _ _ _
  | .cancelTransfer _ _ => True
  | _ => False

/-- What the transaction of `create` does. -/
theorem createTransfer_post (tenantId : Id) (key : String) (dto : CreateWarehouseTransferDto) :
    Post (createTransfer stamp rt tenantId key dto) db
      (fun t db' => ∃ request, normalizeTransfer rt key dto = .ok request ∧
        CreatedTransfer stamp rt tenantId key request db t db') fun _ => True := by
  unfold createTransfer
  split
  · trivial
  · rename_i request hok
    have hchecked := normalizeTransfer_ok hok
    exact (insertTransfer_post (A := .all) (S := fun _ => True) hchecked.pos hchecked.distinct
      trivial).mono (fun _ _ h => ⟨request, hok, h.2⟩) fun _ _ => trivial

/-- What `receive` does. -/
theorem receiveWarehouseTransfer_post (hs : Sound ⟨db, []⟩) (tenantId transferId : Id)
    (key : String) (dto : ReceiptDto) :
    Post (receiveWarehouseTransfer stamp rt tenantId transferId key dto) db
      (fun receipt db' => ∃ request, normalizeTransferReceipt rt key dto = .ok request ∧
        ReceivedBy stamp rt tenantId transferId key request db receipt db') fun _ => True := by
  unfold receiveWarehouseTransfer
  split
  · trivial
  · rename_i request hok
    obtain ⟨hpos, hnodup⟩ := normalizeTransferReceipt_ok hok
    exact (receiveRequest_post (A := .all) (S := fun _ => True) hs hpos hnodup trivial
      fun _ _ => trivial).mono (fun _ _ h => ⟨request, hok, h.2⟩) fun _ _ => trivial

/-- An operation of the transfer service keeps the books and the goods there are. -/
theorem Operation.carriedOut (hs : Sound ⟨db, []⟩) (hb : TransferBooks db) {op : Operation}
    (hop : op.OfTransfers) : CarriedOut db (commit (op.exec stamp rt) db) := by
  cases op with
  | createTransfer t key dto =>
      refine commit_of_post (E := fun _ => True) (post_map.mpr ?_) (.refl hb)
      refine (createTransfer_post t key dto).mono (fun _ _ h => ?_) fun _ _ => trivial
      obtain ⟨request, hok, hcreated⟩ := h
      exact hcreated.carriedOut (normalizeTransfer_ok hok) hb
  | shipTransfer t id =>
      refine commit_of_post (E := fun _ => True) (post_map.mpr ?_) (.refl hb)
      exact (ship_post hs t id (A := .all) trivial trivial).mono
        (fun _ _ h => h.2.carriedOut hb hs) fun _ _ => trivial
  | receiveTransfer t id key dto =>
      refine commit_of_post (E := fun _ => True) (post_map.mpr ?_) (.refl hb)
      refine (receiveWarehouseTransfer_post hs t id key dto).mono (fun _ _ h => ?_)
        fun _ _ => trivial
      obtain ⟨request, -, hreceived⟩ := h
      exact hreceived.carriedOut hb hs
  | cancelTransfer t id =>
      refine commit_of_post (E := fun _ => True) (post_map.mpr ?_) (.refl hb)
      have hpost : Post (cancel t id) db (fun _ db' =>
          Run stamp .all ⟨db, []⟩ ⟨db', []⟩ ∧ Cancelled t id db db')
          (Stuck stamp .all ⟨db, []⟩ fun _ => True) := cancel_post t id trivial
      exact hpost.mono (fun _ _ h => h.2.carriedOut hb hs.lines) fun _ _ => trivial
  | _ => exact hop.elim

/-- Every operation keeps the books of the transfers. -/
theorem Operation.booksKept (hs : Sound ⟨db, []⟩) (hb : TransferBooks db) (op : Operation) :
    BooksKept db (commit (op.exec stamp rt) db) := by
  by_cases hop : op.OfTransfers
  · exact (op.carriedOut hs hb hop).kept
  · have hA : ¬ (op.permit stamp rt db).transfer := by
      cases op <;> simp_all [Operation.permit, Operation.OfTransfers]
    exact (op.run_commit stamp rt hs).booksKept hs hA hb

end Operations

section Runs

variable {stamp : Stamp} {rt : TransferRuntime} {db : DB}

/-- Every serial run keeps the books of the transfers. -/
theorem runAll_booksKept (stamp : Stamp) (rt : TransferRuntime) (hs : Sound ⟨db, []⟩)
    (hb : TransferBooks db) (ops : List Operation) :
    BooksKept db (runAll stamp rt ops db) := by
  induction ops generalizing db with
  | nil => exact .refl hb
  | cons op rest ih =>
      have hfirst : BooksKept db (commit (op.exec stamp rt) db) := op.booksKept hs hb
      have hs' := hs.run (op.run_commit stamp rt hs)
      exact hfirst.trans (ih hs' hfirst.books)

/-- Every serial run of the transfer service alone keeps the goods there are. -/
theorem runAll_carriedOut (hs : Sound ⟨db, []⟩) (hb : TransferBooks db) {ops : List Operation}
    (hops : ∀ op ∈ ops, op.OfTransfers) : CarriedOut db (runAll stamp rt ops db) := by
  induction ops generalizing db with
  | nil => exact .refl hb
  | cons op rest ih =>
      have hfirst : CarriedOut db (commit (op.exec stamp rt) db) :=
        op.carriedOut hs hb (hops op List.mem_cons_self)
      have hs' := hs.run (op.run_commit stamp rt hs)
      have hrest := ih hs' hfirst.kept.books fun op hop => hops op (List.mem_cons_of_mem _ hop)
      exact ⟨hfirst.kept.trans hrest.kept, fun i => (hrest.other i).trans (hfirst.other i)⟩

/-- Over every serial run the goods of an item that are in stock or under way change by
what the movements that are of no transfer record, and by nothing at all if the operations
are of the transfer service. -/
theorem transfer_goods_conserved (hs : Sound ⟨db, []⟩) (hb : TransferBooks db)
    (ops : List Operation) (i : Id) :
    onHand (runAll stamp rt ops db) i + inTransit (runAll stamp rt ops db) i -
        otherDelta (runAll stamp rt ops db) i =
      onHand db i + inTransit db i - otherDelta db i ∧
    ((∀ op ∈ ops, op.OfTransfers) →
      onHand (runAll stamp rt ops db) i + inTransit (runAll stamp rt ops db) i =
        onHand db i + inTransit db i) :=
  ⟨(runAll_booksKept stamp rt hs hb ops).conserved i,
    fun hops => (runAll_carriedOut hs hb hops).conserved i⟩

/-- After every serial run the lines of every transfer are within what they are for, have
received what its receipts booked and its status says, it is RECEIVED exactly when every
line counts as received, and its shipment took each of them
from the stock once, if it has left, and none otherwise.  What a transfer becomes, it was
to become: RECEIVED and CANCELLED are final and nothing received is given back. -/
theorem transfer_books (hs : Sound ⟨db, []⟩) (hb : TransferBooks db) (ops : List Operation) :
    TransferBooks (runAll stamp rt ops db) ∧
    (∀ t ∈ (runAll stamp rt ops db).transfers, ∀ l ∈ t.items,
      0 ≤ l.receivedQuantity ∧ l.receivedQuantity ≤ l.quantity) ∧
    (∀ t ∈ (runAll stamp rt ops db).transfers,
      t.status = .received ↔ allReceived t.items = true) ∧
    Lib.Grown Later db.transfers (runAll stamp rt ops db).transfers := by
  have hkept := runAll_booksKept stamp rt hs hb ops
  have hs' := hs.run (runAll_refines stamp rt hs ops)
  exact ⟨hkept.books, fun t ht l hl => (hs'.lines.bounds t ht l hl).2,
    fun t ht => (hkept.books.told t ht).received_iff, hkept.transfers⟩

/-- A receipt that was booked under a key is found under it. -/
theorem ReceivedBy.found {tenantId transferId : Id} {key : String} {request : ReceiptDto}
    {receipt : WarehouseTransferReceipt} {db' : DB} (hs : Sound ⟨db, []⟩)
    (h : ReceivedBy stamp rt tenantId transferId key request db receipt db') :
    findReceiptByKey db' transferId key = some receipt := by
  cases h with
  | replay hfound _ => exact hfound
  | @receive t planned db₁ _ _ hid _ hnew _ _ _ hlines _ ht =>
      have hkeyed : LedgerKeyed (db.takeId.insertTransferReceipt
          (receiptRow rt tenantId transferId key request planned db.nextId)) :=
        ⟨hs.stockIds.mono (Nat.le_succ _), hs.movementIds.mono (Nat.le_succ _)⟩
      have hreceipts : db'.transferReceipts = db.transferReceipts ++
          [receiptRow rt tenantId transferId key request planned db.nextId] :=
        ht.receipts.trans (linesReceived_of_chain hkeyed hlines).receipts
      unfold findReceiptByKey at hnew ⊢
      rw [hreceipts, List.find?_append, hnew]
      simp [receiptRow]

theorem findReceiptByKey_append {transferId : Id} {key : String} {db' : DB}
    {receipt : WarehouseTransferReceipt} {added : List WarehouseTransferReceipt}
    (h : findReceiptByKey db transferId key = some receipt)
    (hadded : db'.transferReceipts = db.transferReceipts ++ added) :
    findReceiptByKey db' transferId key = some receipt := by
  unfold findReceiptByKey at h ⊢
  rw [hadded, List.find?_append, h]
  rfl

/-- The transfer a receipt is for is there. -/
theorem exists_of_received {tenantId transferId : Id} {key : String} {dto : ReceiptDto}
    {receipt : WarehouseTransferReceipt} {db' : DB}
    (h : receiveWarehouseTransfer stamp rt tenantId transferId key dto db = .ok (receipt, db')) :
    ∃ t ∈ db.transfers, t.id = transferId ∧ t.tenantId = tenantId := by
  have hpost : Post (receiveWarehouseTransfer stamp rt tenantId transferId key dto) db
      (fun _ _ => ∃ t ∈ db.transfers, t.id = transferId ∧ t.tenantId = tenantId)
      fun _ => True := by
    unfold receiveWarehouseTransfer
    split
    · trivial
    · unfold receiveRequest
      rw [post_bind]
      exact findTransfer_post (fun _ _ => trivial) fun t hmem hid htenant =>
        post_iff.mpr ⟨fun _ _ _ => ⟨t, hmem, hid, htenant⟩, fun _ _ => trivial⟩
  exact hpost.of_ok h

/-- Where a receipt is under the key, `receive` answers with it or refuses. -/
theorem receiveRequest_of_found {tenantId transferId : Id} {key : String} {request : ReceiptDto}
    {receipt : WarehouseTransferReceipt} {t : WarehouseTransfer} (hmem : t ∈ db.transfers)
    (hid : t.id = transferId) (htenant : t.tenantId = tenantId)
    (hfound : findReceiptByKey db transferId key = some receipt) :
    receiveRequest stamp rt tenantId transferId key request db =
      if receipt.requestHash = rt.receiptHash request then .ok (receipt, db)
      else .error .transferKeyReused := by
  have hsome : (db.transfers.find? fun row =>
      row.id = transferId ∧ row.tenantId = tenantId).isSome :=
    List.find?_isSome.mpr ⟨t, hmem, decide_eq_true ⟨hid, htenant⟩⟩
  obtain ⟨t', ht'⟩ := Option.isSome_iff_exists.mp hsome
  unfold findReceiptByKey at hfound
  have hfind : findTransfer tenantId transferId db = .ok (t', db) := by
    show (expect _ _ : Tx WarehouseTransfer) db = _
    rw [ht']
    rfl
  unfold receiveRequest
  show (findTransfer tenantId transferId >>= _) db = _
  simp only [bind, StateT.bind, Except.bind, hfind, get, getThe, MonadStateOf.get, StateT.get,
    pure, Except.pure, hfound, replayOrConflict]
  by_cases hhash : receipt.requestHash = rt.receiptHash request
  · simp only [hhash, ne_eq, not_true, if_false, if_true]
    rfl
  · simp only [ne_eq, hhash, not_false_eq_true, if_true, if_false]
    rfl

/-- The receipt that answers a request holds its hash. -/
theorem ReceivedBy.requestHash {tenantId transferId : Id} {key : String} {request : ReceiptDto}
    {receipt : WarehouseTransferReceipt} {db' : DB}
    (h : ReceivedBy stamp rt tenantId transferId key request db receipt db') :
    receipt.requestHash = rt.receiptHash request := by
  cases h with
  | replay _ hhash => exact hhash
  | receive => rfl

/-- Once a receipt is booked under a key it holds the hash of its request.  A repeat of the
request is answered with it and changes nothing, and any other request under the key is
refused unless it has that hash, whatever operations were carried out in between. -/
theorem receive_replayed (hs : Sound ⟨db, []⟩) (hb : TransferBooks db) {tenantId transferId : Id}
    {key : String} {dto : ReceiptDto} {receipt : WarehouseTransferReceipt} {db₁ : DB}
    (h : receiveWarehouseTransfer stamp rt tenantId transferId key dto db = .ok (receipt, db₁))
    (ops : List Operation) :
    (∃ request, normalizeTransferReceipt rt key dto = .ok request ∧
      receipt.requestHash = rt.receiptHash request) ∧
    receiveWarehouseTransfer stamp rt tenantId transferId key dto (runAll stamp rt ops db₁) =
      .ok (receipt, runAll stamp rt ops db₁) ∧
    ∀ again, receiveWarehouseTransfer stamp rt tenantId transferId key again
        (runAll stamp rt ops db₁) =
      match normalizeTransferReceipt rt key again with
      | .error e => .error e
      | .ok request =>
        if receipt.requestHash = rt.receiptHash request then
          .ok (receipt, runAll stamp rt ops db₁)
        else .error .transferKeyReused := by
  have hop : commit ((Operation.receiveTransfer tenantId transferId key dto).exec stamp rt) db =
      db₁ := (commit_map _ _ db).trans (commit_of_ok h)
  have hs₁ : Sound ⟨db₁, []⟩ := hop ▸ hs.run
    ((Operation.receiveTransfer tenantId transferId key dto).run_commit stamp rt hs)
  have hkept₁ : BooksKept db db₁ := hop ▸
    (Operation.receiveTransfer tenantId transferId key dto).booksKept hs hb
  have hkept := runAll_booksKept stamp rt hs₁ hkept₁.books ops
  obtain ⟨request₀, hnormal, hreceived⟩ := (receiveWarehouseTransfer_post hs tenantId transferId key
    dto).of_ok h
  obtain ⟨added, hadded⟩ := hkept.receipts
  have hfound := findReceiptByKey_append (ReceivedBy.found hs hreceived) hadded
  obtain ⟨t, hmem, hid, htenant⟩ := exists_of_received h
  obtain ⟨t', hmem', hlater⟩ := (hkept₁.trans hkept).transfers.mem hmem
  have hanswer (request : ReceiptDto) :
      receiveRequest stamp rt tenantId transferId key request (runAll stamp rt ops db₁) =
        if receipt.requestHash = rt.receiptHash request then .ok (receipt, runAll stamp rt ops db₁)
        else .error .transferKeyReused :=
    receiveRequest_of_found hmem' (hlater.id.trans hid) (hlater.tenant.trans htenant) hfound
  have hhash := ReceivedBy.requestHash hreceived
  refine ⟨⟨request₀, hnormal, hhash⟩, ?_, fun again => ?_⟩
  · unfold receiveWarehouseTransfer
    rw [hnormal]
    exact (hanswer request₀).trans (if_pos hhash)
  · unfold receiveWarehouseTransfer
    cases normalizeTransferReceipt rt key again with
    | error e => rfl
    | ok request => exact hanswer request

end Runs

theorem transferBooks_opening (nextId : Id) (items : List InventoryItem) (c : Catalogue) :
    TransferBooks (opening nextId items c) := by
  constructor <;> simp [opening]

/-- The milk is still under way: five shipped, none received, and five are accounted for. -/
theorem transfer_goods_conserved_milk :
    inTransit (runAll .sequential .plain beansReceived beansAndMilk) 2 = 5 ∧
    onHand (runAll .sequential .plain beansReceived beansAndMilk) 2 +
        inTransit (runAll .sequential .plain beansReceived beansAndMilk) 2 -
        otherDelta (runAll .sequential .plain beansReceived beansAndMilk) 2 =
      onHand beansAndMilk 2 + inTransit beansAndMilk 2 - otherDelta beansAndMilk 2 :=
  ⟨by decide +kernel, (transfer_goods_conserved sound_beansAndMilk
    (transferBooks_opening _ _ _) beansReceived 2).1⟩

/-- The transfer of which one line is received is PARTIALLY_RECEIVED. -/
theorem transfer_books_beans :
    (∃ t ∈ (runAll .sequential .plain beansReceived beansAndMilk).transfers,
      t.status = .partiallyReceived) ∧
    TransferBooks (runAll .sequential .plain beansReceived beansAndMilk) :=
  ⟨by decide +kernel,
    (transfer_books sound_beansAndMilk (transferBooks_opening _ _ _) beansReceived).1⟩

/-- The receipt of the beans. -/
def beansReceipt : ReceiptDto := ⟨[⟨"cccccccccccc", 5⟩], none⟩

/-- The receipt of the beans is repeated after two of them are wasted. -/
theorem receive_replayed_beans :
    ∃ receipt db₁, receiveWarehouseTransfer .sequential .plain 1 11 "second" beansReceipt
        (runAll .sequential .plain (beansReceived.take 4) beansAndMilk) = .ok (receipt, db₁) ∧
      receiveWarehouseTransfer .sequential .plain 1 11 "second" beansReceipt
        (runAll .sequential .plain [.waste 1 ⟨1, 4, 2, by decide⟩] db₁) =
        .ok (receipt, runAll .sequential .plain [.waste 1 ⟨1, 4, 2, by decide⟩] db₁) := by
  have hs := sound_beansAndMilk.run
    (runAll_refines .sequential .plain sound_beansAndMilk (beansReceived.take 4))
  have hb := (runAll_booksKept .sequential .plain sound_beansAndMilk
    (transferBooks_opening _ _ _) (beansReceived.take 4)).books
  have hok : (receiveWarehouseTransfer .sequential .plain 1 11 "second" beansReceipt
      (runAll .sequential .plain (beansReceived.take 4) beansAndMilk)).isOk = true := by
    decide +kernel
  cases h : receiveWarehouseTransfer .sequential .plain 1 11 "second" beansReceipt
      (runAll .sequential .plain (beansReceived.take 4) beansAndMilk) with
  | error e =>
      rw [h] at hok
      cases hok
  | ok r =>
      obtain ⟨-, hagain, -⟩ := receive_replayed hs hb h [.waste 1 ⟨1, 4, 2, by decide⟩]
      exact ⟨r.1, r.2, rfl, hagain⟩

end Orders
end ERP
