import ERP.Inventory.ReplayReconciled
import ERP.Orders.ValueRuns

/-!
# The trail over whole runs

Whatever the operations are and however they end, the movements they leave of an item at
a location record its stock from what it was to what it is.  So the replay of the history
of an item that started with nothing trusts a location, unless a reservation that is still
ACTIVE stands before a movement there.
-/

namespace ERP
namespace Orders

open Inventory Lib.Tx

section Runs

variable {stamp : Stamp} {rt : TransferRuntime} {db : DB} {i t : Id}

/-- Every serial run goes on with the records of an item at a location where they stopped,
and leaves no gap: the first movement found the stock there was, each next what the one
before it left, and the last left the stock there is. -/
theorem stock_trail_unbroken (hs : Sound ⟨db, []⟩) (ops : List Operation) (w : Option Id)
    (i : Id) :
    ∃ records, trail (runAll stamp rt ops db) w i = trail db w i ++ records ∧
      Linked (stockQty db w i) records (stockQty (runAll stamp rt ops db) w i) :=
  (runAll_refines stamp rt hs ops).continues hs w i

/-- Ten received, five reserved, five received: three records from nothing to ten. -/
theorem stock_trail_unbroken_reserved :
    trail (runAll .sequential .plain (receiveReserveReceive 20) averageOpening) (some 2) 0 =
      [(some 0, some 10), (some 10, some 5), (some 5, some 10)] ∧
    ∃ records, trail (runAll .sequential .plain (receiveReserveReceive 20) averageOpening)
        (some 2) 0 = trail averageOpening (some 2) 0 ++ records ∧
      Linked (stockQty averageOpening (some 2) 0) records
        (stockQty (runAll .sequential .plain (receiveReserveReceive 20) averageOpening)
          (some 2) 0) := by
  have hs : Sound ⟨averageOpening, []⟩ := sound_opening ⟨by decide, by decide⟩
  exact ⟨by decide +kernel, stock_trail_unbroken hs (receiveReserveReceive 20) (some 2) 0⟩

theorem Unrecorded.ownedBy (h : Unrecorded db i)
    (hitem : ∃ row ∈ db.items, row.id = i ∧ row.tenantId = t) : OwnedBy i t ⟨db, []⟩ :=
  ⟨hitem, fun m hm hi => absurd hi (h.movements m hm),
    fun m hm _ hi => absurd hi (h.movements m hm), fun _ hr => absurd hr List.not_mem_nil⟩

theorem Unrecorded.trail_eq (h : Unrecorded db i) (w : Option Id) :
    trail db w i = [] ∧ stockQty db w i = 0 := by
  constructor
  · unfold trail movementsAt
    rw [List.map_eq_nil_iff, List.filter_eq_nil_iff]
    intro m hm hk
    exact h.movements m hm (of_decide_eq_true hk).2
  · refine List.sum_eq_zero fun x hx => ?_
    obtain ⟨r, hr, rfl⟩ := List.mem_map.mp hx
    exact if_neg fun hk => h.stocks r hr hk.2

/-- After any serial run on an item that started with nothing, the replay of its history
trusts a location where no movement came after a reservation that is still ACTIVE, and its
layers then hold exactly what is in stock and reserved.  Where one did, the replay does
not, if its reservations are of more than the tolerance. -/
theorem history_trusted (hs : Sound ⟨db, []⟩) (hstamp : Chronological stamp)
    (hitem : ∃ row ∈ db.items, row.id = i ∧ row.tenantId = t) (hempty : Unrecorded db i)
    (ops : List Operation) (now : Int) {balance : HistoricalFifoBalance}
    (hbalance : balance ∈ historicalFifoOf stamp (runAll stamp rt ops db) t i now) :
    (ReservedLast (runAll stamp rt ops db) balance.warehouseId i →
      Trusted (runAll stamp rt ops db) i balance) ∧
    ((∀ m ∈ movementsAt (runAll stamp rt ops db) balance.warehouseId i,
        m.referenceType = some .orderReservation → historyTolerance < m.quantity) →
      balance.reconciled = true → ReservedLast (runAll stamp rt ops db) balance.warehouseId i) := by
  have hrun := runAll_refines stamp rt hs ops
  have hs' := hs.run hrun
  have howned := (hempty.ownedBy hitem).run hs hrun
  have hlinked (w : Option Id) : Linked 0 (trail (runAll stamp rt ops db) w i)
      (stockQty (runAll stamp rt ops db) w i) := by
    obtain ⟨records, htrail, hlinked⟩ := hrun.continues hs w i
    obtain ⟨hnone, hzero⟩ := hempty.trail_eq w
    simp only at htrail hlinked
    rw [hnone, List.nil_append] at htrail
    rw [hzero, ← htrail] at hlinked
    exact hlinked
  exact ⟨trusted_of_linked hstamp hs' howned hlinked now hbalance,
    reservedLast_of_reconciled hstamp hs' howned hlinked now hbalance⟩

end Runs

theorem chronological_sequential : Chronological .sequential := by
  intro a b hlt
  refine Prod.Lex.le_iff.mpr (.inl ?_)
  exact Int.ofNat_lt.mpr hlt

/-- With five reserved the replay still trusts the warehouse, with the ten there are; the
next receipt ends that. -/
theorem history_trusted_until_receipt :
    (∃ balance ∈ historicalFifoOf .sequential
        (runAll .sequential .plain ((receiveReserveReceive 20).take 2) averageOpening) 1 0 99,
      balance.warehouseId = some 2 ∧ layerQuantity balance.layers = 10 ∧
      Trusted (runAll .sequential .plain ((receiveReserveReceive 20).take 2) averageOpening) 0
        balance) ∧
    ∃ balance ∈ historicalFifoOf .sequential
        (runAll .sequential .plain (receiveReserveReceive 20) averageOpening) 1 0 99,
      balance.warehouseId = some 2 ∧ balance.reconciled = false := by
  have hs : Sound ⟨averageOpening, []⟩ := sound_opening ⟨by decide, by decide⟩
  have hempty : Unrecorded averageOpening 0 :=
    ⟨by simp [averageOpening, opening], by simp [averageOpening, opening],
      by simp [averageOpening, opening]⟩
  have hitem : ∃ row ∈ averageOpening.items, row.id = 0 ∧ row.tenantId = 1 :=
    ⟨_, List.mem_singleton.mpr rfl, rfl, rfl⟩
  have hfound : ∃ balance ∈ historicalFifoOf .sequential
      (runAll .sequential .plain ((receiveReserveReceive 20).take 2) averageOpening) 1 0 99,
      balance.warehouseId = some 2 ∧ layerQuantity balance.layers = 10 := by decide +kernel
  obtain ⟨balance, hbalance, hwarehouse, hquantity⟩ := hfound
  refine ⟨⟨balance, hbalance, hwarehouse, hquantity, ?_⟩, by decide +kernel⟩
  refine (history_trusted hs chronological_sequential hitem hempty
    ((receiveReserveReceive 20).take 2) 99 hbalance).1 ?_
  rw [hwarehouse]
  unfold ReservedLast
  decide +kernel

end Orders
end ERP
