import ERP.Inventory.TransferBooks
import ERP.Lib.Growth

/-!
# What the operations keep of the books of the transfers

A transfer is created, shipped, received in parts or cancelled.  Each replaces one
transfer by what it becomes, and the goods that leave a stock are the goods that come
under way.
-/

namespace ERP
namespace Inventory

open Lib.Tx

/-- A line has received at least what it had. -/
def ReceivedMore (l l' : WarehouseTransferItem) : Prop := l.receivedQuantity ≤ l'.receivedQuantity

theorem ReceivedMore.trans {l l' l'' : WarehouseTransferItem} (h : ReceivedMore l l')
    (h' : ReceivedMore l' l'') : ReceivedMore l l'' := le_trans h h'

theorem forall₂_trans {α : Type} {R : α → α → Prop} (hR : ∀ x y z, R x y → R y z → R x z)
    {xs ys zs : List α} (h : List.Forall₂ R xs ys) (h' : List.Forall₂ R ys zs) :
    List.Forall₂ R xs zs := by
  induction h generalizing zs with
  | nil =>
      cases h'
      exact .nil
  | @cons x y xs ys hxy _ ih =>
      cases h' with
      | cons hyz hrest => exact .cons (hR x y _ hxy hyz) (ih hrest)

/-- What a transfer can become: it keeps its key and what its lines are for, a line never
gives back what it received, goods that have left have left, and a transfer that is
received or cancelled stays as it is. -/
structure Later (t t' : WarehouseTransfer) : Prop where
  same : { t' with status := t.status, items := t.items } = t
  lines : t'.items.map lineKey = t.items.map lineKey
  received : List.Forall₂ ReceivedMore t.items t'.items
  final : t.status = .received ∨ t.status = .cancelled → t' = t
  left : hasLeft t.status = true → hasLeft t'.status = true
  pending : t'.status = .pending → t' = t

section Later

variable {t t' t'' : WarehouseTransfer}

theorem Later.refl (t : WarehouseTransfer) : Later t t :=
  ⟨rfl, rfl, List.forall₂_same.mpr fun _ _ => le_refl _, fun _ => rfl, fun hl => hl, fun _ => rfl⟩

theorem Later.id (h : Later t t') : t'.id = t.id := by
  have hid := congrArg WarehouseTransfer.id h.same
  exact hid

theorem Later.tenant (h : Later t t') : t'.tenantId = t.tenantId := by
  have htenant := congrArg WarehouseTransfer.tenantId h.same
  exact htenant

theorem Later.key (h : Later t t') : t'.idempotencyKey = t.idempotencyKey := by
  have hkey := congrArg WarehouseTransfer.idempotencyKey h.same
  exact hkey

theorem Later.hash (h : Later t t') : t'.requestHash = t.requestHash := by
  have hhash := congrArg WarehouseTransfer.requestHash h.same
  exact hhash

theorem Later.trans (h : Later t t') (h' : Later t' t'') : Later t t'' := by
  refine ⟨?_, h'.lines.trans h.lines, ?_, fun hf => ?_, fun hl => h'.left (h.left hl),
    fun hp => ?_⟩
  · have hsame := congrArg
      (fun x : WarehouseTransfer => { x with status := t.status, items := t.items }) h'.same
    exact hsame.trans h.same
  · exact forall₂_trans (R := ReceivedMore) (fun _ _ _ hle hle' => hle.trans hle') h.received
      h'.received
  · have heq := h.final hf
    subst heq
    exact h'.final hf
  · have heq := h'.pending hp
    subst heq
    exact h.pending hp

end Later

/-- What an operation keeps of the books, and what it does not change of the quantities. -/
structure BooksKept (db db' : DB) : Prop where
  books : TransferBooks db'
  conserved : ∀ i, onHand db' i + inTransit db' i - otherDelta db' i =
    onHand db i + inTransit db i - otherDelta db i
  transfers : Lib.Grown Later db.transfers db'.transfers
  receipts : ∃ added, db'.transferReceipts = db.transferReceipts ++ added

section BooksKept

variable {stamp : Stamp} {A : Permit} {db db' db'' : DB} {c c' : Config} {t t' : WarehouseTransfer}

theorem BooksKept.refl (hb : TransferBooks db) : BooksKept db db :=
  ⟨hb, fun _ => rfl, .refl Later.refl, [], (List.append_nil _).symm⟩

theorem BooksKept.trans (h : BooksKept db db') (h' : BooksKept db' db'') : BooksKept db db'' := by
  obtain ⟨added, hadded⟩ := h.receipts
  obtain ⟨more, hmore⟩ := h'.receipts
  exact ⟨h'.books, fun i => (h'.conserved i).trans (h.conserved i),
    h.transfers.trans (fun _ _ _ => Later.trans) h'.transfers, added ++ more,
    by rw [hmore, hadded, List.append_assoc]⟩

/-- An operation on transfers keeps the books, and all it records is of a transfer. -/
structure CarriedOut (db db' : DB) : Prop where
  kept : BooksKept db db'
  other : ∀ i, otherDelta db' i = otherDelta db i

theorem CarriedOut.refl (hb : TransferBooks db) : CarriedOut db db := ⟨.refl hb, fun _ => rfl⟩

/-- The goods of an item that are in stock or under way stay as many. -/
theorem CarriedOut.conserved (h : CarriedOut db db') (i : Id) :
    onHand db' i + inTransit db' i = onHand db i + inTransit db i := by
  have hkept := h.kept.conserved i
  have hother := h.other i
  linarith

/-- What the transfers, the receipts and the shipments are is all the books depend on. -/
theorem TransferBooks.congr (hb : TransferBooks db) (ht : SameTransfers db db')
    (hn : db.nextId ≤ db'.nextId) (hshipped : ∀ id i, shippedQty db' id i = shippedQty db id i)
    (hships : ∀ m' ∈ db'.movements, m'.referenceType = some .warehouseTransferShipment →
      ∃ m ∈ db.movements, m.referenceType = some .warehouseTransferShipment ∧
        m'.referenceId = m.referenceId) : TransferBooks db' := by
  refine ⟨fun t hmem => ?_, fun t hmem l hl => ?_, fun t hmem i => ?_, fun r hr => ?_,
    fun m' hm' href id hid => ?_⟩
  · rw [ht.transfers] at hmem
    exact hb.told t hmem
  · rw [ht.transfers] at hmem
    rw [ht.receipts]
    exact hb.booked t hmem l hl
  · rw [ht.transfers] at hmem
    rw [hshipped]
    exact hb.shipped t hmem i
  · rw [ht.receipts] at hr
    exact Nat.lt_of_lt_of_le (hb.receipts r hr) hn
  · obtain ⟨m, hm, hkind, hsame⟩ := hships m' hm' href
    exact Nat.lt_of_lt_of_le (hb.shipments m hm hkind id (hsame.symm.trans hid)) hn

theorem inTransit_congr (h : db'.transfers = db.transfers) (i : Id) :
    inTransit db' i = inTransit db i := by
  unfold inTransit
  rw [h]

/-- Entries that are of no transfer keep the books. -/
theorem Run.booksKept (hs : Sound c) (hA : ¬ A.transfer) (hb : TransferBooks c.db)
    (h : Run stamp A c c') : BooksKept c.db c'.db := by
  induction h with
  | refl => exact .refl hb
  | tail hrun hstep ih =>
      obtain ⟨hsame, hnext⟩ := hstep.elsewhere_of_not hA
      obtain ⟨hhand, hshipped, hships⟩ := (hstep.moves (hs.run hrun)).other hA
      refine ih.trans ⟨ih.books.congr hsame hnext hshipped hships, fun i => ?_,
        .of_eq Later.refl hsame.transfers, [], by rw [hsame.receipts, List.append_nil]⟩
      have hchange := hhand i
      rw [inTransit_congr hsame.transfers]
      linarith

/-- What a transfer adds to the quantities under way. -/
def ownTransit (t : WarehouseTransfer) (i : Id) : ℚ :=
  if hasLeft t.status then openQty t.items i else 0

/-- One transfer is replaced by what it becomes. -/
structure Replaced (t t' : WarehouseTransfer) (db db' : DB) : Prop where
  mem : t ∈ db.transfers
  transfers : db'.transfers = db.transfers.map fun row => if row.id = t.id then t' else row
  later : Later t t'
  told : Told t'
  receipts : ∃ added, db'.transferReceipts = db.transferReceipts ++ added ∧
    ∀ r ∈ added, r.transferId = t.id
  booked : ∀ l ∈ t'.items, l.receivedQuantity = bookedQty db'.transferReceipts t.id l.id
  shipped : ∀ i, shippedQty db' t.id i = if hasLeft t'.status then lineQty t'.items i else 0
  others : ∀ id i, id ≠ t.id → shippedQty db' id i = shippedQty db id i
  references : ∀ m' ∈ db'.movements, m'.referenceType = some .warehouseTransferShipment →
    m' ∈ db.movements ∨ m'.referenceId = some t.id
  hand : ∀ i, onHand db' i + ownTransit t' i = onHand db i + ownTransit t i
  other : ∀ i, otherDelta db' i = otherDelta db i
  nextId : db.nextId ≤ db'.nextId

theorem bookedQty_append {receipts added : List WarehouseTransferReceipt} {transferId id : Id}
    (hadded : ∀ r ∈ added, r.transferId = transferId) (hne : id ≠ transferId) (lineId : Id) :
    bookedQty (receipts ++ added) id lineId = bookedQty receipts id lineId := by
  unfold bookedQty
  rw [List.map_append, List.sum_append]
  have hzero : (added.map fun r => if r.transferId = id then itemQty r.items lineId else 0).sum
      = 0 := List.sum_eq_zero fun q hq => by
    obtain ⟨r, hr, rfl⟩ := List.mem_map.mp hq
    exact if_neg fun heq => hne (heq.symm.trans (hadded r hr))
  rw [hzero, add_zero]

theorem Replaced.kept (hb : TransferBooks db) (hl : LinesSound db) (h : Replaced t t' db db') :
    BooksKept db db' := by
  obtain ⟨added, hreceipts, hadded⟩ := h.receipts
  have hid := h.later.id
  have hrow {s : WarehouseTransfer} (hs : s ∈ db'.transfers) :
      s = t' ∨ s ∈ db.transfers ∧ s.id ≠ t.id := by
    rw [h.transfers] at hs
    obtain ⟨r, hr, rfl⟩ := List.mem_map.mp hs
    by_cases heq : r.id = t.id
    · exact .inl (if_pos heq)
    · rw [if_neg heq]
      exact .inr ⟨hr, heq⟩
  refine ⟨⟨fun s hs => ?_, fun s hs l hlmem => ?_, fun s hs i => ?_, fun r hr => ?_,
    fun m' hm' href id hmid => ?_⟩, fun i => ?_, ?_, added, hreceipts⟩
  · rcases hrow hs with rfl | ⟨hs, -⟩
    · exact h.told
    · exact hb.told s hs
  · rcases hrow hs with rfl | ⟨hs, hne⟩
    · rw [hid]
      exact h.booked l hlmem
    · rw [hreceipts, bookedQty_append hadded hne]
      exact hb.booked s hs l hlmem
  · rcases hrow hs with rfl | ⟨hs, hne⟩
    · rw [hid]
      exact h.shipped i
    · rw [h.others s.id i hne]
      exact hb.shipped s hs i
  · rw [hreceipts] at hr
    rcases List.mem_append.mp hr with hr | hr
    · exact Nat.lt_of_lt_of_le (hb.receipts r hr) h.nextId
    · rw [hadded r hr]
      exact Nat.lt_of_lt_of_le (hl.ids.lt t h.mem) h.nextId
  · rcases h.references m' hm' href with hmem | hmine
    · exact Nat.lt_of_lt_of_le (hb.shipments m' hmem href id hmid) h.nextId
    · rw [← Option.some.inj (hmine.symm.trans hmid)]
      exact Nat.lt_of_lt_of_le (hl.ids.lt t h.mem) h.nextId
  · have htransit : inTransit db' i = inTransit db i + (ownTransit t' i - ownTransit t i) := by
      unfold inTransit
      rw [h.transfers]
      exact hl.ids.sum_update h.mem (fun _ => t') fun s => ownTransit s i
    rw [htransit, h.other]
    have hhand := h.hand i
    linarith
  · refine .of_map (fun s hs => ?_) h.transfers
    by_cases heq : s.id = t.id
    · rw [if_pos heq, hl.ids.eq_of_key hs h.mem heq]
      exact h.later
    · rw [if_neg heq]
      exact .refl s

end BooksKept

section Operations

variable {stamp : Stamp} {rt : TransferRuntime} {tenantId transferId : Id} {key : String}
  {db db₁ db' : DB} {t : WarehouseTransfer} {planned : List PlannedTransferItem}
  {items : List WarehouseTransferItem} {status next : TransferStatus}

theorem bookedQty_eq_zero {receipts : List WarehouseTransferReceipt} {id : Id}
    (h : ∀ r ∈ receipts, r.transferId ≠ id) (lineId : Id) : bookedQty receipts id lineId = 0 := by
  refine List.sum_eq_zero fun q hq => ?_
  obtain ⟨r, hr, rfl⟩ := List.mem_map.mp hq
  exact if_neg (h r hr)

/-- A transfer that is not there yet has shipped nothing. -/
theorem TransferBooks.shippedQty_next (hb : TransferBooks db) (i : Id) :
    shippedQty db db.nextId i = 0 := by
  refine List.sum_eq_zero fun q hq => ?_
  obtain ⟨m, hm, rfl⟩ := List.mem_map.mp hq
  exact if_neg fun hk => absurd (hb.shipments m hm hk.1 _ hk.2.1) (Nat.lt_irrefl _)

theorem openQty_eq_lineQty (h : ∀ l ∈ items, l.receivedQuantity = 0) (i : Id) :
    openQty items i = lineQty items i := by
  unfold openQty lineQty
  refine congrArg List.sum (List.map_congr_left fun l hl => ?_)
  rw [h l hl, sub_zero]

/-- No line of a new transfer counts as received, because each is for 0.1 at least. -/
theorem CreatedTransfer.not_received {request : CreateWarehouseTransferDto}
    (hchecked : TransferChecked request)
    (h : CreatedTransfer stamp rt tenantId key request db t db') :
    allReceived t.items = false := by
  cases hitems : t.items with
  | nil =>
      have hlines := h.lines
      rw [hitems] at hlines
      exact absurd (List.forall₂_nil_left_iff.mp hlines) hchecked.nonempty
  | cons l rest =>
      obtain ⟨item, hitem, hline⟩ := exists_of_forall₂_mem h.lines (hitems ▸ List.mem_cons_self)
      have hmin := hchecked.minimum item hitem
      rw [← hline.quantity] at hmin
      have hopen : lineReceived unrounded l.quantity l.receivedQuantity = false := by
        rw [lineReceived_unrounded, hline.received, decide_eq_false_iff_not, not_le]
        unfold tolerance
        linarith
      unfold allReceived
      rw [List.all_cons, hopen, Bool.false_and]

/-- A new transfer is pending: nothing of it is shipped or received. -/
theorem CreatedTransfer.carriedOut {request : CreateWarehouseTransferDto}
    (hchecked : TransferChecked request) (hb : TransferBooks db)
    (h : CreatedTransfer stamp rt tenantId key request db t db') : CarriedOut db db' := by
  have hzero (l) (hl : l ∈ t.items) : l.receivedQuantity = 0 := by
    obtain ⟨item, -, hline⟩ := exists_of_forall₂_mem h.lines hl
    exact hline.received
  have hshipped (id i : Id) : shippedQty db' id i = shippedQty db id i := by
    unfold shippedQty
    rw [h.same.movements]
  have hrow {s : WarehouseTransfer} (hs : s ∈ db'.transfers) : s ∈ db.transfers ∨ s = t := by
    rw [h.inserted] at hs
    exact (List.mem_append.mp hs).imp_right List.mem_singleton.mp
  have hother (i : Id) : otherDelta db' i = otherDelta db i := by
    unfold otherDelta
    rw [h.same.movements]
  refine ⟨⟨⟨fun s hs => ?_, fun s hs l hl => ?_, fun s hs i => ?_, fun r hr => ?_,
    fun m hm href id hmid => ?_⟩, fun i => ?_, .of_append Later.refl h.inserted, [],
    by rw [h.receipts, List.append_nil]⟩, hother⟩
  · rcases hrow hs with hs | rfl
    · exact hb.told s hs
    · unfold Told
      rw [h.status]
      exact ⟨hzero, h.not_received hchecked⟩
  · rw [h.receipts]
    rcases hrow hs with hs | rfl
    · exact hb.booked s hs l hl
    · rw [hzero l hl, bookedQty_eq_zero fun r hr heq => ?_]
      have hlt := hb.receipts r hr
      rw [heq, h.id] at hlt
      exact Nat.lt_irrefl _ hlt
  · rw [hshipped]
    rcases hrow hs with hs | rfl
    · exact hb.shipped s hs i
    · rw [h.id, hb.shippedQty_next, h.status]
      rfl
  · rw [h.receipts] at hr
    exact Nat.lt_of_lt_of_le (hb.receipts r hr) h.same.nextId
  · rw [h.same.movements] at hm
    exact Nat.lt_of_lt_of_le (hb.shipments m hm href id hmid) h.same.nextId
  · have hhand : onHand db' i = onHand db i := by
      unfold onHand
      rw [h.same.stocks]
    have htransit : inTransit db' i = inTransit db i := by
      unfold inTransit
      rw [h.inserted, List.map_append, List.sum_append, List.map_singleton, List.sum_singleton,
        h.status]
      exact add_zero _
    rw [hhand, hother, htransit]

/-- The transfer that is in a status is the one that gets the next. -/
theorem withStatus_transfers (hl : LinesSound db) (hmem : t ∈ db.transfers)
    (hid : t.id = transferId) (htenant : t.tenantId = tenantId)
    (h : db₁.transfers = db.transfers.map fun row =>
      if row.id = t.id then { row with items := items } else row) :
    (withStatus db₁ tenantId transferId t.status next).transfers = db.transfers.map fun row =>
      if row.id = t.id then { t with items := items, status := next } else row := by
  unfold withStatus DB.updateTransfers
  rw [h, List.map_map]
  refine List.map_congr_left fun row hrow => ?_
  rw [Function.comp_apply]
  by_cases heq : row.id = t.id
  · have hself : row = t := hl.ids.eq_of_key hrow hmem heq
    rw [if_pos heq, if_pos heq, hself]
    exact if_pos (decide_eq_true ⟨hid, htenant, rfl⟩)
  · rw [if_neg heq, if_neg heq]
    refine if_neg fun hk => heq ?_
    rw [(of_decide_eq_true hk).1, hid]

theorem onHand_of_sameLedger (h : SameLedger db db') (i : Id) : onHand db' i = onHand db i := by
  unfold onHand
  rw [h.stocks]

theorem otherDelta_of_sameLedger (h : SameLedger db db') (i : Id) :
    otherDelta db' i = otherDelta db i := by
  unfold otherDelta
  rw [h.movements]

theorem shippedQty_of_sameLedger (h : SameLedger db db') (id i : Id) :
    shippedQty db' id i = shippedQty db id i := by
  unfold shippedQty
  rw [h.movements]

theorem TransferBooks.pending_told (hb : TransferBooks db) (hmem : t ∈ db.transfers)
    (hstatus : t.status = .pending) :
    (∀ l ∈ t.items, l.receivedQuantity = 0) ∧ allReceived t.items = false := by
  have htold := hb.told t hmem
  unfold Told at htold
  rw [hstatus] at htold
  exact htold

/-- A transfer as it is read is its row with the lines it has. -/
theorem LinesSound.transfers_self (hl : LinesSound db) (hmem : t ∈ db.transfers) :
    db.transfers = db.transfers.map fun row =>
      if row.id = t.id then { row with items := t.items } else row := by
  refine ((List.map_congr_left fun row hrow => ?_).trans (List.map_id _)).symm
  by_cases heq : row.id = t.id
  · rw [if_pos heq, hl.ids.eq_of_key hrow hmem heq]
    rfl
  · exact if_neg heq

/-- Cancelling a pending transfer changes its status alone. -/
theorem Cancelled.carriedOut (hb : TransferBooks db) (hl : LinesSound db)
    (h : Cancelled tenantId transferId db db') : CarriedOut db db' := by
  cases h with
  | again _ _ _ _ => exact .refl hb
  | @cancel t _ hmem hid htenant hstatus hsame ht =>
      have htold := hb.pending_told hmem hstatus
      have htransfers : db'.transfers = db.transfers.map fun row =>
          if row.id = t.id then { t with status := .cancelled } else row := by
        rw [ht.transfers, ← hstatus]
        exact withStatus_transfers hl hmem hid htenant (hl.transfers_self hmem)
      have hreplaced : Replaced t { t with status := .cancelled } db db' := by
        refine ⟨hmem, htransfers, ⟨rfl, rfl, List.forall₂_same.mpr fun _ _ => le_refl _,
            fun hf => ?_, fun hleft => ?_, fun hp => ?_⟩, htold, ⟨[], ?_, by simp⟩,
          fun l hlmem => ?_, fun i => ?_, fun id i _ => ?_, fun m hm _ => .inl ?_, fun i => ?_,
          fun i => ?_, hsame.nextId⟩
        · rw [hstatus] at hf
          rcases hf with hf | hf <;> cases hf
        · rw [hstatus] at hleft
          cases hleft
        · cases hp
        · rw [ht.receipts, List.append_nil]
          rfl
        · rw [ht.receipts]
          exact hb.booked t hmem l hlmem
        · rw [shippedQty_of_sameLedger hsame]
          have hnone := hb.shipped t hmem i
          rw [hstatus] at hnone
          exact hnone
        · rw [shippedQty_of_sameLedger hsame]
          rfl
        · rw [hsame.movements] at hm
          exact hm
        · rw [onHand_of_sameLedger hsame]
          unfold ownTransit
          rw [hstatus]
          rfl
        · rw [otherDelta_of_sameLedger hsame]
          rfl
      exact ⟨hreplaced.kept hb hl, hreplaced.other⟩

/-- Shipping a pending transfer takes its lines from the stock and puts them under way. -/
theorem Shipped.carriedOut (hb : TransferBooks db) (hs : Sound ⟨db, []⟩)
    (h : Shipped stamp tenantId transferId db db') : CarriedOut db db' := by
  have hl := hs.lines
  cases h with
  | again _ _ _ _ => exact .refl hb
  | @ship t db₁ _ hmem hid htenant hstatus hlines hsame ht =>
      have htold := hb.pending_told hmem hstatus
      have hshipped := linesShipped_of_chain ⟨hs.stockIds, hs.movementIds⟩ hlines
      have htransfers : db'.transfers = db.transfers.map fun row =>
          if row.id = t.id then { t with status := .inTransit } else row := by
        rw [ht.transfers, ← hstatus]
        refine withStatus_transfers hl hmem hid htenant ?_
        rw [hshipped.same.transfers]
        exact hl.transfers_self hmem
      have hreplaced : Replaced t { t with status := .inTransit } db db' := by
        refine ⟨hmem, htransfers, ⟨rfl, rfl, List.forall₂_same.mpr fun _ _ => le_refl _,
            fun hf => ?_, fun hleft => rfl, fun hp => ?_⟩, htold, ⟨[], ?_, by simp⟩,
          fun l hlmem => ?_, fun i => ?_, fun id i hne => ?_, fun m hm href => ?_, fun i => ?_,
          fun i => ?_, hshipped.nextId.trans hsame.nextId⟩
        · rw [hstatus] at hf
          rcases hf with hf | hf <;> cases hf
        · cases hp
        · rw [ht.receipts, List.append_nil]
          exact hshipped.same.receipts
        · have hreceipts : db'.transferReceipts = db.transferReceipts :=
            ht.receipts.trans hshipped.same.receipts
          rw [hreceipts]
          exact hb.booked t hmem l hlmem
        · have hnone := hb.shipped t hmem i
          rw [hstatus] at hnone
          rw [shippedQty_of_sameLedger hsame]
          refine (hshipped.shipped t.id i).trans ?_
          rw [hnone, if_pos rfl]
          exact zero_add _
        · rw [shippedQty_of_sameLedger hsame]
          refine (hshipped.shipped id i).trans ?_
          rw [if_neg hne.symm, add_zero]
        · rw [hsame.movements] at hm
          exact hshipped.references m hm href
        · rw [onHand_of_sameLedger hsame]
          have hhand := hshipped.hand i
          have hopen := openQty_eq_lineQty htold.1 i
          have htransit : ownTransit { t with status := .inTransit } i = openQty t.items i := rfl
          have hbefore : ownTransit t i = 0 := by
            unfold ownTransit
            rw [hstatus]
            rfl
          rw [htransit, hbefore, hopen]
          have hmoved : onHand (withStatus db₁ tenantId transferId .pending .inTransit) i =
              onHand db₁ i := rfl
          linarith
        · rw [otherDelta_of_sameLedger hsame]
          exact hshipped.other i
      exact ⟨hreplaced.kept hb hl, hreplaced.other⟩

theorem receiveLines_keys (planned : List PlannedTransferItem)
    (items : List WarehouseTransferItem) :
    (receiveLines planned items).map lineKey = items.map lineKey := by
  induction planned generalizing items with
  | nil => rfl
  | cons p rest ih =>
      refine (ih _).trans ?_
      rw [List.map_map]
      exact List.map_congr_left fun l _ => receiveLine_key _ _ l

/-- A plan that brings something takes nothing back. -/
theorem receivedMore_receiveLines (h : PlanFor items planned)
    (hnonneg : ∀ p ∈ planned, 0 ≤ p.delta) :
    List.Forall₂ ReceivedMore items (receiveLines planned items) := by
  induction planned generalizing items with
  | nil => exact List.forall₂_same.mpr fun l _ => le_refl l.receivedQuantity
  | cons p rest ih =>
      have hrest := ih h.tail fun q hq => hnonneg q (List.mem_cons_of_mem p hq)
      refine forall₂_trans (R := ReceivedMore) (fun _ _ _ hle hle' => hle.trans hle') ?_ hrest
      refine List.forall₂_map_right_iff.mpr (List.forall₂_same.mpr fun l hl => ?_)
      by_cases hid : l.id = p.transferItem.id
      · have heq : l = p.transferItem :=
          Lib.eq_of_key_of_ne h.lines hl (h.mem p List.mem_cons_self) hid
        unfold ReceivedMore receiveLine
        rw [if_pos hid, heq, h.next p List.mem_cons_self]
        exact le_add_of_nonneg_right (hnonneg p List.mem_cons_self)
      · unfold ReceivedMore
        rw [receiveLine_of_ne hid]

/-- A receipt brings what it books from under way into the stock. -/
theorem ReceivedBy.carriedOut {request : ReceiptDto} {receipt : WarehouseTransferReceipt}
    (hb : TransferBooks db) (hs : Sound ⟨db, []⟩)
    (h : ReceivedBy stamp rt tenantId transferId key request db receipt db') :
    CarriedOut db db' := by
  have hl := hs.lines
  cases h with
  | replay _ _ => exact .refl hb
  | @receive t planned db₁ _ hmem hid htenant _ hstatus hplanned hdistinct hlines hsame ht =>
      have hleft : hasLeft t.status = true := by
        rcases hstatus with hst | hst <;> rw [hst] <;> rfl
      have hplan : PlanFor t.items planned :=
        ⟨(hl.distinct t hmem).imp fun hab => hab.1, hdistinct, fun p hp => (hplanned p hp).mem,
          fun p hp => (hplanned p hp).next⟩
      have hkeyed : LedgerKeyed (db.takeId.insertTransferReceipt
          (receiptRow rt tenantId transferId key request planned db.nextId)) :=
        ⟨hs.stockIds.mono (Nat.le_succ _), hs.movementIds.mono (Nat.le_succ _)⟩
      have hreceived := linesReceived_of_chain hkeyed hlines
      have hnext := transferReceiptStatus_eq (t := t) hdistinct
      have hgone : hasLeft (transferReceiptStatus t planned) = true := by
        rw [hnext]
        split <;> rfl
      have htransfers : db'.transfers = db.transfers.map fun row => if row.id = t.id then
          { t with items := receiveLines planned t.items,
                   status := transferReceiptStatus t planned } else row := by
        rw [ht.transfers]
        refine withStatus_transfers hl hmem hid htenant ?_
        rw [hreceived.transfers]
        refine List.map_congr_left fun row hrow => ?_
        by_cases heq : row.id = t.id
        · rw [if_pos heq, if_pos heq, hl.ids.eq_of_key hrow hmem heq]
        · rw [if_neg heq, if_neg heq]
      have hreceipts : db'.transferReceipts = db.transferReceipts ++
          [receiptRow rt tenantId transferId key request planned db.nextId] :=
        ht.receipts.trans hreceived.receipts
      have hreplaced : Replaced t
          { t with items := receiveLines planned t.items,
                   status := transferReceiptStatus t planned } db db' := by
        refine ⟨hmem, htransfers, ⟨rfl, receiveLines_keys planned t.items,
            receivedMore_receiveLines hplan fun p hp => (hplanned p hp).nonneg,
            fun hf => ?_, fun _ => hgone, fun hp => ?_⟩, ?_, ⟨_, hreceipts, fun r hr => ?_⟩,
          fun l' hl' => ?_, fun i => ?_, fun id i hne => ?_, fun m hm href => .inl ?_, fun i => ?_,
          fun i => ?_, ?_⟩
        · rcases hstatus with hst | hst <;> rw [hst] at hf <;> rcases hf with hf | hf <;> cases hf
        · have hp' : transferReceiptStatus t planned = .pending := hp
          rw [hp'] at hgone
          cases hgone
        · unfold Told
          dsimp only
          rw [hnext]
          by_cases hall : allReceived (receiveLines planned t.items) = true
          · rw [if_pos hall]
            exact hall
          · rw [if_neg hall]
            exact Bool.eq_false_iff.mpr hall
        · rw [List.mem_singleton.mp hr]
          exact hid.symm
        · obtain ⟨l, hlmem, hlid, hquantity⟩ := received_receiveLines hplan hl'
          rw [hreceipts, hquantity, hlid, hb.booked t hmem l hlmem]
          unfold bookedQty
          rw [List.map_append, List.sum_append, List.map_singleton, List.sum_singleton]
          congr 1
          exact (if_pos hid.symm).symm
        · rw [shippedQty_of_sameLedger hsame]
          refine (hreceived.shipped t.id i).trans ((hb.shipped t hmem i).trans ?_)
          rw [if_pos hleft, if_pos hgone]
          exact (lineQty_receiveLines planned t.items i).symm
        · rw [shippedQty_of_sameLedger hsame]
          exact hreceived.shipped id i
        · rw [hsame.movements] at hm
          exact hreceived.references m hm href
        · rw [onHand_of_sameLedger hsame]
          have hhand := hreceived.hand i
          have hopen := openQty_receiveLines hplan i
          unfold ownTransit
          rw [if_pos hleft, if_pos hgone]
          have hmoved : onHand (withStatus db₁ tenantId transferId t.status
              (transferReceiptStatus t planned)) i = onHand db₁ i := rfl
          have hbefore : onHand (db.takeId.insertTransferReceipt
              (receiptRow rt tenantId transferId key request planned db.nextId)) i =
              onHand db i := rfl
          dsimp only
          linarith
        · rw [otherDelta_of_sameLedger hsame]
          exact hreceived.other i
        · exact (Nat.le_succ _).trans (hreceived.nextId.trans hsame.nextId)
      exact ⟨hreplaced.kept hb hl, hreplaced.other⟩

end Operations

end Inventory
end ERP
