import ERP.Inventory.Purchasing
import ERP.Lib.Binary64

/-!
# What a receipt can take of a line

The sums and differences of `receivePurchaseOrder` are those of doubles.  A receipt takes
at least 0.1 of a line and no more than rounds to 1e-9 above what is missing of it; which
lines that lets a receipt complete is worked out here.
-/

namespace ERP
namespace Orders

open Inventory Lib Binary64

/-- The numbers of a line as they are stored: ordered whole, and received no more of it. -/
structure LineNumbers (l : PurchaseOrderItem) : Prop where
  whole : l.quantity.den = 1
  pos : 0 < l.quantity
  ordered : IsDouble l.quantity
  received : IsDouble l.receivedQuantity
  nonneg : 0 ≤ l.receivedQuantity
  le : l.receivedQuantity ≤ l.quantity

/-- The line does not count as received in full. -/
def Incomplete (l : PurchaseOrderItem) : Prop :=
  l.receivedQuantity < Binary64.round (l.quantity - Binary64.round tolerance)

instance (l : PurchaseOrderItem) : Decidable (Incomplete l) :=
  inferInstanceAs (Decidable (_ < _))

/-- What the line would have received with `q` more. -/
def withMore (l : PurchaseOrderItem) (q : ℚ) : ℚ := Binary64.round (l.receivedQuantity + q)

/-- The line takes `q` more. -/
def Takes (l : PurchaseOrderItem) (q : ℚ) : Prop :=
  Binary64.round (withMore l q - l.quantity) ≤ Binary64.round tolerance

instance (l : PurchaseOrderItem) (q : ℚ) : Decidable (Takes l q) :=
  inferInstanceAs (Decidable (_ ≤ _))

/-- The least quantity a receipt may name. -/
def tenth : ℚ := Binary64.round (1 / 10)

/-- A receipt of `q` completes the line. -/
structure Clears (l : PurchaseOrderItem) (q : ℚ) : Prop where
  double : IsDouble q
  least : 1 / 10 ≤ q
  takes : Takes l q
  full : Binary64.round (l.quantity - Binary64.round tolerance) ≤ withMore l q

/-- The line once `q` more is received. -/
def receivedMore (l : PurchaseOrderItem) (q : ℚ) : PurchaseOrderItem :=
  { l with receivedQuantity := min (withMore l q) l.quantity }

/-- A receipt may name `q` for the line, and the line has more then. -/
structure Accepts (l : PurchaseOrderItem) (q : ℚ) : Prop where
  double : IsDouble q
  least : 1 / 10 ≤ q
  takes : Takes l q
  more : l.receivedQuantity < (receivedMore l q).receivedQuantity

section Lines

variable {l : PurchaseOrderItem} {q q' : ℚ}

theorem least_tenth : 1 / 10 ≤ tenth := by decide +kernel

theorem double_tenth : IsDouble tenth := isDouble_round _

theorem tenth_le (hq : IsDouble q) (h : 1 / 10 ≤ q) : tenth ≤ q := round_le hq h

theorem withMore_mono (h : q ≤ q') : withMore l q ≤ withMore l q' :=
  round_mono (by linarith)

theorem Takes.mono (h : Takes l q') (hle : q ≤ q') : Takes l q :=
  (round_mono (sub_le_sub_right (withMore_mono hle) _)).trans h

/-- A line that takes anything a receipt may name takes the least of it. -/
theorem Takes.tenth (h : Takes l q) (hq : IsDouble q) (hleast : 1 / 10 ≤ q) : Takes l tenth :=
  h.mono (tenth_le hq hleast)

theorem takes_of_le (h : withMore l q ≤ l.quantity) : Takes l q := by
  have hzero : Binary64.round (withMore l q - l.quantity) ≤ 0 :=
    round_le isDouble_zero (sub_nonpos.mpr h)
  exact hzero.trans (by decide +kernel)

/-- What counts as all of a line is no more than all of it. -/
theorem LineNumbers.full_le (h : LineNumbers l) :
    Binary64.round (l.quantity - Binary64.round tolerance) ≤ l.quantity := by
  refine round_le h.ordered (sub_le_self _ ?_)
  decide +kernel

theorem LineNumbers.lt_of_incomplete (h : LineNumbers l) (hopen : Incomplete l) :
    l.receivedQuantity < l.quantity :=
  lt_of_lt_of_le hopen h.full_le

/-- What is planned for a line. -/
theorem planLine_eq (l : PurchaseOrderItem) (q : ℚ) :
    planLine Binary64.round l.quantity l.receivedQuantity q =
      if Takes l q then
        some (Binary64.round ((receivedMore l q).receivedQuantity - l.receivedQuantity),
          (receivedMore l q).receivedQuantity)
      else none := by
  unfold planLine
  by_cases h : Takes l q
  · rw [if_pos h]
    exact if_neg (not_lt.mpr h)
  · rw [if_neg h]
    exact if_pos (not_le.mp h)

theorem lineReceived_eq (l : PurchaseOrderItem) :
    lineReceived Binary64.round l.quantity l.receivedQuantity = decide (¬ Incomplete l) :=
  decide_eq_decide.mpr not_lt.symm

theorem LineNumbers.le_receivedMore (h : LineNumbers l) (hq : 0 ≤ q) :
    l.receivedQuantity ≤ (receivedMore l q).receivedQuantity :=
  le_min (le_round h.received (le_add_of_nonneg_right hq)) h.le

theorem LineNumbers.receivedMore (h : LineNumbers l) (hq : 0 ≤ q) :
    LineNumbers (receivedMore l q) where
  whole := h.whole
  pos := h.pos
  ordered := h.ordered
  received := by
    show IsDouble (min (withMore l q) l.quantity)
    rcases min_choice (withMore l q) l.quantity with hmin | hmin
    · rw [hmin]
      exact isDouble_round _
    · rw [hmin]
      exact h.ordered
  nonneg := h.nonneg.trans (h.le_receivedMore hq)
  le := min_le_right _ _

/-- Nothing is taken back of a line. -/
theorem LineNumbers.delta_nonneg (h : LineNumbers l) (hq : 0 ≤ q) :
    0 ≤ Binary64.round ((Orders.receivedMore l q).receivedQuantity - l.receivedQuantity) :=
  le_round isDouble_zero (sub_nonneg.mpr (h.le_receivedMore hq))

theorem Accepts.delta_pos (h : Accepts l q) :
    0 < Binary64.round ((receivedMore l q).receivedQuantity - l.receivedQuantity) :=
  round_pos (sub_pos.mpr h.more)

theorem Clears.complete (h : Clears l q) (hl : LineNumbers l) : ¬ Incomplete (receivedMore l q) :=
  not_lt.mpr (le_min h.full hl.full_le)

theorem Clears.accepts (h : Clears l q) (hl : LineNumbers l) (hopen : Incomplete l) :
    Accepts l q :=
  ⟨h.double, h.least, h.takes, lt_of_lt_of_le hopen (le_min h.full hl.full_le)⟩

/-- A receipt that leaves a line with all of it. -/
theorem clears_of_eq (hl : LineNumbers l) (hq : IsDouble q) (hleast : 1 / 10 ≤ q)
    (h : withMore l q = l.quantity) : Clears l q :=
  ⟨hq, hleast, takes_of_le (le_of_eq h), hl.full_le.trans_eq h.symm⟩

/-- Below 2^52 one receipt completes a line that takes the least of one: what is missing,
or 0.1 when that is more. -/
theorem exists_clears_of_lt (hl : LineNumbers l) (hsmall : l.quantity < 2 ^ 52)
    (htakes : Takes l tenth) : ∃ q, Clears l q := by
  have hint : (l.quantity.num : ℚ) = l.quantity := (Rat.den_eq_one_iff l.quantity).mp hl.whole
  have hnum : l.quantity.num < 2 ^ 52 := by
    rw [← hint] at hsmall
    exact_mod_cast hsmall
  have hall : withMore l (Binary64.round (l.quantity - l.receivedQuantity)) = l.quantity := by
    have hle := hl.le
    rw [← hint] at hle
    have hround := round_add_round_sub hnum hl.nonneg hle
    rw [hint] at hround
    exact hround
  rcases le_total tenth (Binary64.round (l.quantity - l.receivedQuantity)) with hmore | hless
  · exact ⟨_, clears_of_eq hl (isDouble_round _) (least_tenth.trans hmore) hall⟩
  · have hfull : l.quantity ≤ withMore l tenth := hall.symm.trans_le (withMore_mono hless)
    exact ⟨tenth, double_tenth, least_tenth, htakes, hl.full_le.trans hfull⟩

/-- From 2^52 on one receipt completes a line of which half is there, since what is missing
is a double. -/
theorem exists_clears_of_le (hl : LineNumbers l) (hopen : Incomplete l)
    (hlarge : 2 ^ 52 ≤ l.quantity) (hhalf : l.quantity / 2 ≤ l.receivedQuantity) :
    ∃ q, Clears l q := by
  have hlt := hl.lt_of_incomplete hopen
  have hmissing : 1 / 2 ≤ l.quantity - l.receivedQuantity :=
    hl.received.half_le_sub hl.ordered (by linarith) hlt
  refine ⟨l.quantity - l.receivedQuantity, clears_of_eq hl ?_ (by linarith) ?_⟩
  · exact hl.received.sub hl.ordered hhalf hl.le
  · unfold withMore
    rw [add_sub_cancel]
    exact hl.ordered

/-- From 2^52 on a line takes half of what is ordered as long as it has less. -/
theorem accepts_half (hl : LineNumbers l) (hlarge : 2 ^ 52 ≤ l.quantity)
    (hless : l.receivedQuantity < l.quantity / 2) :
    Accepts l (l.quantity / 2) ∧
      l.quantity / 2 ≤ (receivedMore l (l.quantity / 2)).receivedQuantity := by
  have hdouble := hl.ordered.half
  have hreached : l.quantity / 2 ≤ (receivedMore l (l.quantity / 2)).receivedQuantity :=
    le_min (le_round hdouble (by linarith [hl.nonneg])) (by linarith [hl.pos])
  have hwithin : withMore l (l.quantity / 2) ≤ l.quantity := round_le hl.ordered (by linarith)
  exact ⟨⟨hdouble, by linarith, takes_of_le hwithin, lt_of_lt_of_le hless hreached⟩, hreached⟩

/-- A line that takes the least of a receipt takes one after which it is complete, or can be
completed by another. -/
theorem exists_accepts (hl : LineNumbers l) (hopen : Incomplete l) (htakes : Takes l tenth) :
    ∃ q, Accepts l q ∧ (Incomplete (receivedMore l q) → ∃ q', Clears (receivedMore l q) q') := by
  have hone (h : ∃ q, Clears l q) : ∃ q, Accepts l q ∧
      (Incomplete (receivedMore l q) → ∃ q', Clears (receivedMore l q) q') := by
    obtain ⟨q, hq⟩ := h
    exact ⟨q, hq.accepts hl hopen, fun hstill => absurd hstill (hq.complete hl)⟩
  rcases lt_or_ge l.quantity (2 ^ 52) with hsmall | hlarge
  · exact hone (exists_clears_of_lt hl hsmall htakes)
  rcases le_or_gt (l.quantity / 2) l.receivedQuantity with hhalf | hless
  · exact hone (exists_clears_of_le hl hopen hlarge hhalf)
  · obtain ⟨haccepts, hreached⟩ := accepts_half hl hlarge hless
    have hnonneg : 0 ≤ l.quantity / 2 := by linarith [hl.pos]
    exact ⟨_, haccepts, fun hstill =>
      exists_clears_of_le (hl.receivedMore hnonneg) hstill hlarge hreached⟩

end Lines

end Orders
end ERP
