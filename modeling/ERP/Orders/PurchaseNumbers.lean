import ERP.Lib.Runs
import ERP.Orders.OrderLines

/-!
# The numbers of purchase orders

`PurchaseOrderService.create` numbers an order by the month and by how many orders
the tenant has; `delete` takes an order away for good.  So the next number is one
that no order carries as long as every deleted order is the last of its tenant
that was made in the month of the deletion, or before all of these.
-/

namespace ERP
namespace Orders

open Inventory Lib

theorem dash_notMem_padStart (width n : Nat) : '-' ∉ (padStart width n).toList := fun hmem =>
  absurd (isDigit_padStart hmem) (by decide)

theorem dash_notMem_toString (n : Nat) : '-' ∉ (toString n).toList := by
  rw [Nat.toString_eq_repr, Nat.toList_repr]
  intro hmem
  exact absurd (Nat.isDigit_of_mem_toDigits (by decide) (by decide) hmem) (by decide)

/-- The number names its month and how many orders there were. -/
theorem poNumber_injective {month month' count count' : Nat}
    (h : poNumber month count = poNumber month' count') : month = month' ∧ count = count' := by
  have hlists := congrArg String.toList h
  unfold poNumber at hlists
  simp only [String.toList_append, List.append_assoc] at hlists
  have hrest := List.append_cancel_left hlists
  have hcut : "-".toList = ['-'] := by decide
  rw [hcut] at hrest
  have hjoin (n m behind : List Char) :
      n ++ (m ++ (['-'] ++ behind)) = (n ++ m) ++ '-' :: behind := by
    rw [List.append_assoc, List.singleton_append]
  rw [hjoin, hjoin] at hrest
  have hfront : '-' ∉ (toString (month / 12)).toList ++ (padStart 2 (month % 12 + 1)).toList :=
    fun hmem => (List.mem_append.mp hmem).elim (dash_notMem_toString _) (dash_notMem_padStart 2 _)
  obtain ⟨hmonth, -, hcount⟩ :=
    (List.append_cons_inj_of_notMem hfront (dash_notMem_padStart 5 _)).mp hrest
  have hwidth (m : Nat) : (padStart 2 (m % 12 + 1)).toList.length = 2 :=
    length_padStart_two (by omega)
  obtain ⟨hyear, hpart⟩ := List.append_inj' hmonth ((hwidth month).trans (hwidth month').symm)
  have hyears : month / 12 = month' / 12 := by
    rw [Nat.toString_eq_repr, Nat.toString_eq_repr, Nat.toList_repr, Nat.toList_repr] at hyear
    have hparsed := congrArg (fun digits => Nat.ofDigitChars 10 digits 0) hyear
    simpa using hparsed
  have hparts := padStart_injective 2 (String.toList_inj.mp hpart)
  have hcounts := padStart_injective 5 (String.toList_inj.mp hcount)
  omega

/-- `PurchaseOrderService.delete`. -/
def OrderBook.delete (book : OrderBook) (tenantId id : Id) : Except OrderFailure OrderBook :=
  match prepareDelete book.db tenantId id with
  | .error e => .error (.update e)
  | .ok () =>
      .ok { book with
        orders := book.orders.deleteMany fun row => row.id = id ∧ row.tenantId = tenantId }

/-- The orders of a tenant, in the order they were made. -/
def OrderBook.ofTenant (book : OrderBook) (tenantId : Id) : List OrderRow :=
  book.orders.toList.filter fun row => row.tenantId = tenantId

/-- The orders and the month in which the next call comes. -/
structure Desk where
  book : OrderBook
  month : Nat

/-- A call of `create` or `delete`, or the end of the month. -/
inductive DeskEvent where
  | create (tenantId newId : Id) (dto : CreatePurchaseOrderDto)
  | delete (tenantId id : Id)
  | monthEnds
  deriving DecidableEq, Repr

namespace Desk

def exec (d : Desk) : DeskEvent → Except OrderFailure Desk
  | .create tenantId newId dto =>
      (d.book.create tenantId d.month newId dto).map fun book => { d with book }
  | .delete tenantId id => (d.book.delete tenantId id).map fun book => { d with book }
  | .monthEnds => .ok { d with month := d.month + 1 }

/-- A call that throws leaves the orders as they are. -/
def run (d : Desk) (events : List DeskEvent) : Desk :=
  events.foldl (fun d event => (d.exec event).toOption.getD d) d

/-- `generatePoNumber`: the number the next order of the tenant gets. -/
def nextNumber (d : Desk) (tenantId : Id) : String :=
  poNumber d.month (d.book.orders.count fun row => row.tenantId = tenantId)

/-- The next number is no order's, and no order with a new id is refused for it. -/
structure NumberAvailable (d : Desk) (tenantId : Id) : Prop where
  fresh : d.nextNumber tenantId ∉ (d.book.ofTenant tenantId).map OrderRow.poNumber
  accepted : ∀ newId dto, newId ∉ d.book.orders.toList.map OrderRow.id →
    d.exec (.create tenantId newId dto) ≠ .error .numberTaken

/-- A deletion that is accepted takes an order after which the tenant made none in this
month. -/
def TakesLast (d : Desk) (tenantId : Id) : DeskEvent → Prop
  | .delete t id => t = tenantId → ∀ d', d.exec (.delete t id) = .ok d' →
      ∀ done row later, d.book.ofTenant tenantId = done ++ row :: later → row.id = id →
        ∀ r ∈ later, ∀ count, r.poNumber ≠ poNumber d.month count
  | _ => True

end Desk

/-- The numbers are of months up to this one, in the order of the list, and those of
this month have their place in the list as their sequence. -/
def Numbered (month : Nat) (rows : List OrderRow) : Prop :=
  ∃ made : List (Nat × Nat), rows.map OrderRow.poNumber =
      made.map (fun p : Nat × Nat => poNumber p.1 p.2) ∧
    made.Pairwise (fun p q : Nat × Nat => p.1 ≤ q.1) ∧ (∀ p ∈ made, p.1 ≤ month) ∧
      ∀ (i : Nat) (p : Nat × Nat), made[i]? = some p → p.1 = month → p.2 = i

variable {month : Nat} {rows done later : List OrderRow} {row : OrderRow}

theorem Numbered.nil : Numbered month [] :=
  ⟨[], rfl, List.Pairwise.nil, fun p hp => absurd hp List.not_mem_nil, fun i p hp => by simp at hp⟩

/-- In a new month there is no number yet. -/
theorem Numbered.next (h : Numbered month rows) : Numbered (month + 1) rows := by
  obtain ⟨made, hmade, hsorted, hle, -⟩ := h
  refine ⟨made, hmade, hsorted, fun p hp => Nat.le_succ_of_le (hle p hp), fun i p hp hmonth => ?_⟩
  have hpast := hle p (List.mem_of_getElem? hp)
  omega

theorem Numbered.snoc (h : Numbered month rows)
    (hrow : row.poNumber = poNumber month rows.length) : Numbered month (rows ++ [row]) := by
  obtain ⟨made, hmade, hsorted, hle, hplace⟩ := h
  have hlen : made.length = rows.length := by
    have hlens := congrArg List.length hmade
    simpa using hlens.symm
  refine ⟨made ++ [(month, rows.length)], ?_, ?_, ?_, ?_⟩
  · rw [List.map_append, List.map_append, hmade, List.map_singleton, List.map_singleton, hrow]
  · refine List.pairwise_append.mpr ⟨hsorted, List.pairwise_singleton _ _, fun p hp q hq => ?_⟩
    rw [List.mem_singleton.mp hq]
    exact hle p hp
  · intro p hp
    rcases List.mem_append.mp hp with hp | hp
    · exact hle p hp
    · rw [List.mem_singleton.mp hp]
  · intro i p hp hmonth
    rw [List.getElem?_append] at hp
    split at hp
    · exact hplace i p hp hmonth
    · rename_i hi
      have hi' : i - made.length = 0 := by
        by_contra hne
        rw [List.getElem?_eq_none (by simp; omega)] at hp
        cases hp
      rw [hi', List.getElem?_cons_zero] at hp
      cases hp
      omega

/-- The next number of the month is not among those there are. -/
theorem Numbered.fresh (h : Numbered month rows) :
    poNumber month rows.length ∉ rows.map OrderRow.poNumber := by
  obtain ⟨made, hmade, -, -, hplace⟩ := h
  have hlen : made.length = rows.length := by
    have hlens := congrArg List.length hmade
    simpa using hlens.symm
  rw [hmade]
  intro hmem
  obtain ⟨p, hp, hnumber⟩ := List.mem_map.mp hmem
  obtain ⟨i, hi⟩ := List.mem_iff_getElem?.mp hp
  obtain ⟨hmonth, hcount⟩ := poNumber_injective hnumber
  have hplace := hplace i p hi hmonth
  have hlt : i < made.length := (List.getElem?_eq_some_iff.mp hi).1
  omega

/-- The months of the part of the list behind a row. -/
theorem Numbered.split (h : Numbered month (done ++ row :: later)) :
    ∃ (before : List (Nat × Nat)) (m : Nat × Nat) (after : List (Nat × Nat)),
    done.map OrderRow.poNumber =
        before.map (fun p : Nat × Nat => poNumber p.1 p.2) ∧
      later.map OrderRow.poNumber = after.map (fun p : Nat × Nat => poNumber p.1 p.2) ∧
      (before ++ m :: after).Pairwise (fun p q : Nat × Nat => p.1 ≤ q.1) ∧
      (∀ p ∈ before ++ m :: after, p.1 ≤ month) ∧
      ∀ (i : Nat) (p : Nat × Nat), (before ++ m :: after)[i]? = some p → p.1 = month → p.2 = i := by
  obtain ⟨made, hmade, hsorted, hle, hplace⟩ := h
  rw [List.map_append, List.map_cons] at hmade
  obtain ⟨before, others, rfl, hbefore, hothers⟩ := List.map_eq_append_iff.mp hmade.symm
  obtain ⟨m, after, rfl, -, hafter⟩ := List.map_eq_cons_iff.mp hothers
  exact ⟨before, m, after, hbefore.symm, hafter.symm, hsorted, hle, hplace⟩

/-- Without a row behind which there is none of this month. -/
theorem Numbered.erase (h : Numbered month (done ++ row :: later))
    (hlast : ∀ r ∈ later, ∀ count, r.poNumber ≠ poNumber month count) :
    Numbered month (done ++ later) := by
  obtain ⟨before, m, after, hbefore, hafter, hsorted, hle, hplace⟩ := h.split
  have hsub : (before ++ after).Sublist (before ++ m :: after) :=
    List.Sublist.append_left (List.sublist_cons_self m after) before
  have hother : ∀ p ∈ after, p.1 ≠ month := by
    rintro p hp rfl
    have hnumber : poNumber p.1 p.2 ∈ later.map OrderRow.poNumber := by
      rw [hafter]
      exact List.mem_map.mpr ⟨p, hp, rfl⟩
    obtain ⟨r, hr, hrp⟩ := List.mem_map.mp hnumber
    exact hlast r hr p.2 hrp
  refine ⟨before ++ after, ?_, hsorted.sublist hsub, fun p hp => hle p (hsub.subset hp), ?_⟩
  · rw [List.map_append, List.map_append, hbefore, hafter]
  · intro i p hp hmonth
    rw [List.getElem?_append] at hp
    split at hp
    · rename_i hi
      refine hplace i p ?_ hmonth
      rw [List.getElem?_append_left hi]
      exact hp
    · exact absurd hmonth (hother p (List.mem_of_getElem? hp))

/-- Without a row behind which there is one of this month, the next number is that of
the last row. -/
theorem Numbered.taken (h : Numbered month (done ++ row :: later)) {r : OrderRow}
    (hr : r ∈ later) {count : Nat} (hnumber : r.poNumber = poNumber month count) :
    poNumber month (done ++ later).length ∈ (done ++ later).map OrderRow.poNumber := by
  obtain ⟨before, m, after, hbefore, hafter, hsorted, hle, hplace⟩ := h.split
  have hlens : (before ++ after).length = (done ++ later).length := by
    have hdone := congrArg List.length hbefore
    have hlater := congrArg List.length hafter
    simp only [List.length_map] at hdone hlater
    rw [List.length_append, List.length_append, hdone, hlater]
  -- one behind the row is of this month, and the last is not of an earlier one
  obtain ⟨p, hp, hthis⟩ : ∃ p ∈ after, p.1 = month := by
    have hmem : r.poNumber ∈ after.map (fun p => poNumber p.1 p.2) := by
      rw [← hafter]
      exact List.mem_map_of_mem hr
    obtain ⟨p, hp, heq⟩ := List.mem_map.mp hmem
    exact ⟨p, hp, (poNumber_injective (heq.trans hnumber)).1⟩
  have hsome : after ≠ [] := List.ne_nil_of_mem hp
  obtain ⟨front, q, rfl⟩ : ∃ front q, after = front ++ [q] :=
    ⟨after.dropLast, after.getLast hsome, (List.dropLast_append_getLast hsome).symm⟩
  have hqmonth : q.1 = month := by
    have hq : q ∈ before ++ m :: (front ++ [q]) := by simp
    refine le_antisymm (hle q hq) ?_
    rcases List.mem_append.mp hp with hfront | hlast
    · have hlate := (List.pairwise_append.mp hsorted).2.1
      have hpairs := (List.pairwise_append.mp (List.pairwise_cons.mp hlate).2).2.2
      rw [← hthis]
      exact hpairs p hfront q (List.mem_singleton_self q)
    · rw [← hthis, List.mem_singleton.mp hlast]
  have hqplace : q.2 = (before ++ (front ++ [q])).length := by
    refine hplace _ q ?_ hqmonth
    rw [List.getElem?_append_right (by simp)]
    have hi : (before ++ (front ++ [q])).length - before.length = front.length + 1 := by
      simp
    rw [hi, List.getElem?_cons_succ]
    simp
  rw [List.map_append, hbefore, hafter, ← List.map_append, ← hlens, ← hqplace, ← hqmonth]
  exact List.mem_map.mpr ⟨q, by simp, rfl⟩

/-! ## The calls -/

variable {book book' : OrderBook} {d d' : Desk} {tenantId t newId id : Id}
  {dto : CreatePurchaseOrderDto}

theorem length_ofTenant (book : OrderBook) (tenantId : Id) :
    (book.ofTenant tenantId).length = book.orders.count fun row => row.tenantId = tenantId :=
  List.countP_eq_length_filter.symm

/-- What an accepted creation inserts. -/
theorem create_row (h : book.create tenantId month newId dto = .ok book') :
    ∃ row : OrderRow, row.tenantId = tenantId ∧
      row.poNumber = poNumber month (book.ofTenant tenantId).length ∧
      book'.orders.toList = book.orders.toList ++ [row] := by
  unfold OrderBook.create at h
  split at h
  · cases h
  split at h
  · cases h
  split at h
  · cases h
  split at h
  · cases h
  · cases h
  dsimp only at h
  split at h
  · cases h
  rename_i hfree
  split at h
  · cases h
  · cases h
  cases h
  have hid : newId ∉ book.orders.toList.map OrderRow.id := by
    intro hmem
    obtain ⟨row, hrow, hrowId⟩ := List.mem_map.mp hmem
    exact hfree ⟨row, hrow, .inl hrowId⟩
  refine ⟨_, ?_, ?_, congrArg Rows.toList (dif_neg hid)⟩
  · rfl
  · rw [length_ofTenant]

theorem checkNewOrder_ne {db : DB} : checkNewOrder db tenantId dto ≠ .error .numberTaken := by
  intro h
  unfold checkNewOrder at h
  simp only [bind, Except.bind, pure, Except.pure, throw, throwThe, MonadExceptOf.throw] at h
  repeat' split at h
  all_goals cases h

theorem checkLines_ne {items : List CreatePurchaseOrderItemDto} :
    checkLines items ≠ .error .numberTaken := by
  induction items with
  | nil => exact fun h => by cases h
  | cons item rest ih =>
      unfold checkLines
      split
      · exact fun h => by cases h
      split
      · exact fun h => by cases h
      · exact ih

theorem checkAggregate_ne {items : List CreatePurchaseOrderItemDto} :
    checkAggregate items ≠ .error .numberTaken := by
  unfold checkAggregate
  split
  · exact fun h => by cases h
  split
  · exact fun h => by cases h
  · exact checkLines_ne

theorem storeInt_ne {value : ℚ} : storeInt value ≠ .error .numberTaken := by
  unfold storeInt
  split
  · exact fun h => by cases h
  · exact fun h => by cases h

theorem lineRows_ne {next : Id} {items : List PurchaseOrderItemProps} :
    lineRows next items ≠ .error .numberTaken := by
  induction items generalizing next with
  | nil => exact fun h => by cases h
  | cons item rest ih =>
      unfold lineRows
      intro h
      cases hprice : storeInt item.unitPrice with
      | error e =>
          rw [hprice] at h
          cases h
          exact storeInt_ne hprice
      | ok unitPrice =>
          cases hsubtotal : storeInt item.subtotal with
          | error e =>
              rw [hprice, hsubtotal] at h
              cases h
              exact storeInt_ne hsubtotal
          | ok subtotal =>
              cases hrest : lineRows (next + 1) rest with
              | error e =>
                  rw [hprice, hsubtotal, hrest] at h
                  cases h
                  exact ih hrest
              | ok lines =>
                  rw [hprice, hsubtotal, hrest] at h
                  cases h

/-- A creation is refused for its number only if that, or the id, is taken. -/
theorem create_numberTaken (h : book.create tenantId month newId dto = .error .numberTaken) :
    newId ∈ book.orders.toList.map OrderRow.id ∨
      poNumber month (book.ofTenant tenantId).length ∈
        (book.ofTenant tenantId).map OrderRow.poNumber := by
  unfold OrderBook.create at h
  split at h
  · cases h
  split at h
  · rename_i hcheck
    cases h
    exact absurd hcheck checkNewOrder_ne
  split at h
  · cases h
  split at h
  · rename_i hcheck
    cases h
    exact absurd hcheck checkAggregate_ne
  · cases h
  dsimp only at h
  split at h
  · rename_i htaken
    obtain ⟨row, hrow, hid | ⟨htenant, hnumber⟩⟩ := htaken
    · exact .inl (List.mem_map.mpr ⟨row, hrow, hid⟩)
    · refine .inr (List.mem_map.mpr ⟨row, ?_, ?_⟩)
      · exact List.mem_filter.mpr ⟨hrow, decide_eq_true htenant⟩
      · rw [length_ofTenant]
        exact hnumber
  split at h
  · rename_i hstore
    cases h
    exact absurd hstore storeInt_ne
  · rename_i hlines
    cases h
    exact absurd hlines lineRows_ne
  · cases h

theorem ofTenant_create (tenantId : Id) (h : book.create t month newId dto = .ok book') :
    (t ≠ tenantId ∧ book'.ofTenant tenantId = book.ofTenant tenantId) ∨
      (t = tenantId ∧ ∃ row : OrderRow,
        row.poNumber = poNumber month (book.ofTenant tenantId).length ∧
        book'.ofTenant tenantId = book.ofTenant tenantId ++ [row]) := by
  obtain ⟨row, htenant, hnumber, horders⟩ := create_row h
  have hof : book'.ofTenant tenantId = book.ofTenant tenantId ++
      [row].filter fun row => row.tenantId = tenantId := by
    unfold OrderBook.ofTenant
    rw [horders, List.filter_append]
  by_cases ht : t = tenantId
  · refine .inr ⟨ht, row, by rw [hnumber, ht], ?_⟩
    have hone : [row].filter (fun row => row.tenantId = tenantId) = [row] :=
      List.filter_eq_self.mpr fun r hr => by
        rw [List.mem_singleton.mp hr]
        exact decide_eq_true (htenant.trans ht)
    rw [hof, hone]
  · refine .inl ⟨ht, ?_⟩
    have hnone : [row].filter (fun row => row.tenantId = tenantId) = [] :=
      List.filter_eq_nil_iff.mpr fun r hr hsat => by
        rw [List.mem_singleton.mp hr] at hsat
        exact ht (htenant.symm.trans (of_decide_eq_true hsat))
    rw [hof, hnone, List.append_nil]

/-- An accepted deletion takes the order with the id out of those of its tenant. -/
theorem ofTenant_delete (tenantId : Id) (h : book.delete t id = .ok book') :
    (t ≠ tenantId ∧ book'.ofTenant tenantId = book.ofTenant tenantId) ∨
      (t = tenantId ∧ (∃ row ∈ book.ofTenant tenantId, row.id = id) ∧
        ∀ done row later, book.ofTenant tenantId = done ++ row :: later → row.id = id →
          book'.ofTenant tenantId = done ++ later) := by
  unfold OrderBook.delete at h
  split at h
  · cases h
  rename_i hcheck
  cases h
  have hof : (OrderBook.ofTenant { book with orders := book.orders.deleteMany fun row =>
      row.id = id ∧ row.tenantId = t } tenantId) =
        (book.ofTenant tenantId).filter fun row => ¬ (row.id = id ∧ row.tenantId = t) := by
    show (book.orders.toList.filter _).filter _ = (book.orders.toList.filter _).filter _
    rw [List.filter_filter, List.filter_filter]
    refine List.filter_congr fun row _ => ?_
    rw [Bool.and_comm, ← decide_not]
  have htenant (row : OrderRow) (hrow : row ∈ book.ofTenant tenantId) : row.tenantId = tenantId :=
    of_decide_eq_true (List.mem_filter.mp hrow).2
  by_cases ht : t = tenantId
  · subst ht
    refine .inr ⟨rfl, ?_, fun done row later hsplit hid => ?_⟩
    · unfold prepareDelete at hcheck
      split at hcheck
      · cases hcheck
      rename_i po hpo
      obtain ⟨row, hrow, -, hid, howner⟩ := row_of_find hpo
      exact ⟨row, List.mem_filter.mpr ⟨hrow, decide_eq_true howner⟩, hid⟩
    · -- no other order has the id
      have hnodup : ((done ++ row :: later).map OrderRow.id).Nodup := by
        rw [← hsplit]
        exact book.orders.nodup.sublist (List.filter_sublist.map OrderRow.id)
      rw [List.map_append, List.map_cons, List.nodup_middle] at hnodup
      have hother (r : OrderRow) (hr : r ∈ done ++ later) : r.id ≠ id := by
        intro heq
        refine (List.nodup_cons.mp hnodup).1 ?_
        rw [hid, ← heq, ← List.map_append]
        exact List.mem_map_of_mem hr
      have hkeep (rows : List OrderRow) (hsub : rows ⊆ done ++ later) :
          rows.filter (fun r => ¬ (r.id = id ∧ r.tenantId = t)) = rows :=
        List.filter_eq_self.mpr fun r hr => decide_eq_true fun h => hother r (hsub hr) h.1
      have howner : row.tenantId = t :=
        htenant row (hsplit ▸ List.mem_append_right _ List.mem_cons_self)
      rw [hof, hsplit, List.filter_append, List.filter_cons_of_neg (by simp [hid, howner]),
        hkeep done (List.subset_append_left _ _), hkeep later (List.subset_append_right _ _)]
  · refine .inl ⟨ht, ?_⟩
    rw [hof]
    refine List.filter_eq_self.mpr fun row hrow => decide_eq_true fun h => ht ?_
    exact h.2.symm.trans (htenant row hrow)

/-! ## Whole runs -/

theorem Numbered.available (h : Numbered d.month (d.book.ofTenant tenantId)) :
    d.NumberAvailable tenantId := by
  have hfresh : d.nextNumber tenantId ∉ (d.book.ofTenant tenantId).map OrderRow.poNumber := by
    unfold Desk.nextNumber
    rw [← length_ofTenant]
    exact h.fresh
  refine ⟨hfresh, fun newId dto hid htaken => ?_⟩
  have hexec : (d.book.create tenantId d.month newId dto).map (fun book => { d with book }) =
      .error .numberTaken := htaken
  cases hcreate : d.book.create tenantId d.month newId dto with
  | ok book =>
      rw [hcreate] at hexec
      cases hexec
  | error e =>
      rw [hcreate] at hexec
      cases hexec
      rcases create_numberTaken hcreate with hmem | hmem
      · exact hid hmem
      · exact h.fresh hmem

/-- One event of a run. -/
theorem exec_numbered (h : Numbered d.month (d.book.ofTenant tenantId)) (event : DeskEvent)
    (hok : d.exec event = .ok d') :
    (d.TakesLast tenantId event → Numbered d'.month (d'.book.ofTenant tenantId)) ∧
      (d'.NumberAvailable tenantId → d.TakesLast tenantId event) := by
  cases event with
  | create t newId dto =>
      refine ⟨fun _ => ?_, fun _ => trivial⟩
      have hexec : (d.book.create t d.month newId dto).map (fun book => { d with book }) = .ok d' :=
        hok
      cases hcreate : d.book.create t d.month newId dto with
      | error e =>
          rw [hcreate] at hexec
          cases hexec
      | ok book =>
          rw [hcreate] at hexec
          cases hexec
          show Numbered d.month (book.ofTenant tenantId)
          rcases ofTenant_create tenantId hcreate with ⟨-, hsame⟩ | ⟨-, row, hnumber, hmore⟩
          · rw [hsame]
            exact h
          · rw [hmore]
            exact h.snoc hnumber
  | delete t id =>
      have hexec : (d.book.delete t id).map (fun book => { d with book }) = .ok d' := hok
      cases hdelete : d.book.delete t id with
      | error e =>
          rw [hdelete] at hexec
          cases hexec
      | ok book =>
          rw [hdelete] at hexec
          cases hexec
          rcases ofTenant_delete tenantId hdelete with ⟨hother, hsame⟩
            | ⟨rfl, ⟨row, hrow, hid⟩, hafter⟩
          · refine ⟨fun _ => ?_, fun _ ht => absurd ht hother⟩
            show Numbered d.month (book.ofTenant tenantId)
            rw [hsame]
            exact h
          · constructor
            · intro htakes
              obtain ⟨done, later, hsplit⟩ := List.append_of_mem hrow
              show Numbered d.month (book.ofTenant t)
              rw [hafter done row later hsplit hid]
              rw [hsplit] at h
              exact h.erase (htakes rfl _ hok done row later hsplit hid)
            · intro havailable _ _ _ done row later hsplit hid r hr count hnumber
              refine havailable.fresh ?_
              show poNumber d.month (book.orders.count fun row => row.tenantId = t) ∈
                (book.ofTenant t).map OrderRow.poNumber
              rw [← length_ofTenant, hafter done row later hsplit hid]
              rw [hsplit] at h
              exact h.taken hr hnumber
  | monthEnds =>
      cases hok
      exact ⟨fun _ => h.next, fun _ => trivial⟩

/-- In a run from orders of which the tenant has none, the next number is available in
every state if and only if every deletion of the tenant takes the last of this month. -/
theorem purchase_numbers_available_iff (book : OrderBook) (month : Nat) (tenantId : Id)
    (hnone : book.ofTenant tenantId = []) (events : List DeskEvent) :
    (∀ prior, prior <+: events →
        ((⟨book, month⟩ : Desk).run prior).NumberAvailable tenantId) ↔
      ∀ prior event rest, events = prior ++ event :: rest →
        ((⟨book, month⟩ : Desk).run prior).TakesLast tenantId event := by
  refine forall_prefix_iff (I := fun d : Desk => Numbered d.month (d.book.ofTenant tenantId))
    (P := fun d : Desk => d.NumberAvailable tenantId) (C := fun d : Desk => d.TakesLast tenantId)
    (fun d h => h.available) (fun d event h htakes => ?_) (fun d event h havailable => ?_) events
    ⟨book, month⟩ ?_
  · cases hexec : d.exec event with
    | error e => exact h
    | ok d' => exact (exec_numbered h event hexec).1 htakes
  · cases hexec : d.exec event with
    | error e =>
        cases event with
        | create t newId dto => trivial
        | monthEnds => trivial
        | delete t id =>
            intro _ d' hok
            rw [hexec] at hok
            cases hok
    | ok d' =>
        rw [hexec] at havailable
        exact (exec_numbered h event hexec).2 havailable
  · show Numbered month (book.ofTenant tenantId)
    rw [hnone]
    exact Numbered.nil

/-- Two orders, of which the second is deleted. -/
def lastDeleted : List DeskEvent :=
  [.create 1 7 ⟨3, none, [⟨5, 2, 1000⟩]⟩, .create 1 8 ⟨3, none, [⟨5, 1, 1000⟩]⟩, .delete 1 8]

/-- Two orders, of which the first is deleted. -/
def firstDeleted : List DeskEvent :=
  [.create 1 7 ⟨3, none, [⟨5, 2, 1000⟩]⟩, .create 1 8 ⟨3, none, [⟨5, 1, 1000⟩]⟩, .delete 1 7]

theorem purchase_numbers_available_example :
    ((⟨emptyBook, 24303⟩ : Desk).run lastDeleted).book.orders.toList.length = 1 ∧
      ((⟨emptyBook, 24303⟩ : Desk).run lastDeleted).NumberAvailable 1 := by
  refine ⟨by decide +kernel, (purchase_numbers_available_iff emptyBook 24303 1 rfl lastDeleted).mpr
    (fun prior event rest heq => ?_) lastDeleted List.prefix_rfl⟩
  rcases prior with _ | ⟨first, _ | ⟨second, _ | ⟨third, more⟩⟩⟩
  · cases heq
    trivial
  · cases heq
    trivial
  · cases heq
    intro _ d' _ done row later hsplit hid
    -- the tenant has the orders 7 and 8, in this order
    have hids : (done ++ row :: later).map OrderRow.id = [7, 8] := by
      rw [← hsplit]
      decide +kernel
    rcases done with _ | ⟨r, _ | ⟨r', done⟩⟩
    · simp [hid] at hids
    · simp only [List.cons_append, List.nil_append, List.map_cons, List.cons.injEq,
        List.map_eq_nil_iff] at hids
      rw [hids.2.2]
      exact fun r hr => absurd hr List.not_mem_nil
    · simp at hids
  · simp [lastDeleted] at heq

/-- The third order would get the number of the second, and is refused. -/
theorem purchase_number_taken :
    (((⟨emptyBook, 24303⟩ : Desk).run firstDeleted).exec
      (.create 1 9 ⟨3, none, [⟨5, 1, 1000⟩]⟩)).map (fun _ => ()) = .error .numberTaken ∧
    ¬ ∀ prior, prior <+: firstDeleted →
      ((⟨emptyBook, 24303⟩ : Desk).run prior).NumberAvailable 1 := by
  refine ⟨by decide +kernel, fun h => ?_⟩
  have htaken : ((⟨emptyBook, 24303⟩ : Desk).run firstDeleted).nextNumber 1 ∈
      (((⟨emptyBook, 24303⟩ : Desk).run firstDeleted).book.ofTenant 1).map OrderRow.poNumber := by
    decide +kernel
  exact (h firstDeleted List.prefix_rfl).fresh htaken

end Orders
end ERP
