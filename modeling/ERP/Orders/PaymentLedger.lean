import Mathlib.Algebra.Order.BigOperators.Group.List
import Mathlib.Algebra.Order.Group.Int
import ERP.Orders.Payments

/-!
# The payment ledger

What is committed about orders and payments changes by whole transactions: `Ledger`
is the committed part of the store, `Ledger.Step` one payment or one update of an
order, and every statement of every call changes the ledger by one such step or not
at all.  The facts about money are then facts about `Ledger.Step`.
-/

namespace ERP
namespace Orders
namespace Payments

open Lib

structure Ledger where
  orders : Id → Option SalesOrder
  payments : List Payment

namespace Ledger

def paid (L : Ledger) (payment : Payment) (order : SalesOrder) : Ledger where
  orders := Function.update L.orders payment.orderId (some (pay order payment.amount))
  payments := L.payments ++ [payment]

def updated (L : Ledger) (i : Id) (order : SalesOrder) : Ledger :=
  { L with orders := Function.update L.orders i (some order) }

def paymentsOf (L : Ledger) (i : Id) : List Payment :=
  L.payments.filter fun payment => payment.orderId = i

/-- One transaction, as the others see it. -/
inductive Step : Ledger → Ledger → Prop
  | pay {L : Ledger} {payment : Payment} {order : SalesOrder}
      (hrow : L.orders payment.orderId = some order)
      (haccepts : accepts order payment.amount = true) : Step L (L.paid payment order)
  | update {L : Ledger} {i : Id} {u : OrderUpdate} {order : SalesOrder}
      (hrow : L.orders i = some order) (happlies : u.applies order = true) :
      Step L (L.updated i (u.change order))

end Ledger

def OrderStore.ledger (s : OrderStore) : Ledger :=
  ⟨fun i => (s.orders i).committed, s.payments⟩

/-! ## The calls and the rows they hold -/

variable {s s' : OrderStore} {calls : Nat → Option PaymentCall} {p q : Nat} {k k' : PaymentCall}
  {dto : CreatePaymentDto} {i : Id}

/-- Call `p` has written a payment of `dto` to the order it holds. -/
def Paying (s : OrderStore) (p : Nat) (dto : CreatePaymentDto) (order : SalesOrder) : Prop :=
  (s.orders dto.orderId).committed = some order ∧ accepts order dto.amount = true ∧
    (s.orders dto.orderId).lock = some ⟨p, some (some (pay order dto.amount))⟩

/-- What the position of a call says of the rows. -/
def PaymentCall.Stands (s : OrderStore) (p : Nat) : PaymentCall → Prop
  | .updateOrder dto _ order =>
      (s.orders dto.orderId).committed = some order ∧ accepts order dto.amount = true ∧
        isOrder dto.orderId dto.tenantId order = true ∧
        (s.orders dto.orderId).lock = some ⟨p, none⟩
  | .insertPayment dto _ => ∃ order, Paying s p dto order
  | .reload dto _ => ∃ order, Paying s p dto order
  | .commitPayment dto _ isFullyPaid => ∃ order, Paying s p dto order ∧
      isFullyPaid = decide ((pay order dto.amount).paymentStatus = .paid)
  | .updateCommit i _ u => ∃ order, (s.orders i).committed = some order ∧
      u.applies order = true ∧ (s.orders i).lock = some ⟨p, some (some (u.change order))⟩
  | _ => True

structure LocksHeld (s : OrderStore) (calls : Nat → Option PaymentCall) : Prop where
  locks : ∀ i p, (s.orders i).heldBy p → ∃ k, calls p = some k ∧ k.holds = some i
  stands : ∀ p k, calls p = some k → k.Stands s p

/-- A call whose rows stay stands where it stood. -/
theorem stands_congr (hsame : ∀ i, (s.orders i).heldBy q → s'.orders i = s.orders i)
    (h : k.Stands s q) : k.Stands s' q := by
  have hpaying {dto : CreatePaymentDto} {order : SalesOrder} (h : Paying s q dto order) :
      Paying s' q dto order := by
    unfold Paying
    rw [hsame dto.orderId ⟨_, h.2.2, rfl⟩]
    exact h
  cases k with
  | updateOrder dto announces order =>
      show (s'.orders dto.orderId).committed = _ ∧ _ ∧ _ ∧ (s'.orders dto.orderId).lock = _
      rw [hsame dto.orderId ⟨_, h.2.2.2, rfl⟩]
      exact h
  | insertPayment dto announces =>
      obtain ⟨order, h⟩ := h
      exact ⟨order, hpaying h⟩
  | reload dto announces =>
      obtain ⟨order, h⟩ := h
      exact ⟨order, hpaying h⟩
  | commitPayment dto announces isFullyPaid =>
      obtain ⟨order, h, hfull⟩ := h
      exact ⟨order, hpaying h, hfull⟩
  | updateCommit i tenantId u =>
      obtain ⟨order, hrow, happlies, hlock⟩ := h
      refine ⟨order, ?_, happlies, ?_⟩
      · rw [hsame i ⟨_, hlock, rfl⟩]
        exact hrow
      · rw [hsame i ⟨_, hlock, rfl⟩]
        exact hlock
  | _ => trivial

/-- A step of call `p`, given what it does to the rows of the others. -/
theorem LocksHeld.step (h : LocksHeld s calls)
    (hothers : ∀ q i, q ≠ p → (s.orders i).heldBy q → s'.orders i = s.orders i)
    (hnew : ∀ q i, q ≠ p → (s'.orders i).heldBy q → (s.orders i).heldBy q)
    (hown : ∀ i, (s'.orders i).heldBy p → k'.holds = some i)
    (hstands : k'.Stands s' p) : LocksHeld s' (Function.update calls p (some k')) where
  locks := fun i q hq => by
    by_cases hqp : q = p
    · subst hqp
      exact ⟨k', Function.update_self .., hown i hq⟩
    · obtain ⟨k, hk, hholds⟩ := h.locks i q (hnew q i hqp hq)
      exact ⟨k, by rw [Function.update_of_ne hqp]; exact hk, hholds⟩
  stands := fun q k hk => by
    by_cases hqp : q = p
    · subst hqp
      rw [Function.update_self] at hk
      cases hk
      exact hstands
    · rw [Function.update_of_ne hqp] at hk
      exact stands_congr (fun i hi => hothers q i hqp hi) (h.stands q k hk)

/-- A call that does nothing to the rows and holds none. -/
theorem LocksHeld.move (h : LocksHeld s calls) (hk : ∀ k, calls p = some k → k.holds = none)
    (hs : s'.orders = s.orders) (hstands : k'.Stands s' p) :
    LocksHeld s' (Function.update calls p (some k')) := by
  refine h.step (fun q i _ _ => by rw [hs]) (fun q i _ hq => by rwa [hs] at hq) (fun i hi => ?_)
    hstands
  rw [hs] at hi
  obtain ⟨k, hcall, hholds⟩ := h.locks i p hi
  rw [hk k hcall] at hholds
  cases hholds

/-- A call that keeps the row it holds. -/
theorem LocksHeld.stay (h : LocksHeld s calls) (hk : calls p = some k)
    (hholds : k'.holds = k.holds) (hs : s'.orders = s.orders) (hstands : k'.Stands s' p) :
    LocksHeld s' (Function.update calls p (some k')) := by
  refine h.step (fun q i _ _ => by rw [hs]) (fun q i _ hq => by rwa [hs] at hq) (fun i hi => ?_)
    hstands
  rw [hs] at hi
  obtain ⟨found, hcall, hheld⟩ := h.locks i p hi
  rw [hk] at hcall
  cases hcall
  rw [hholds]
  exact hheld

/-- A call that takes or writes one row it may take. -/
theorem LocksHeld.take {c : Cell SalesOrder} (h : LocksHeld s calls)
    (havailable : (s.orders i).available p = true)
    (hkeeps : ∀ j, j ≠ i → ¬ (s.orders j).heldBy p)
    (hc : ∀ q, c.heldBy q → q = p) (hholds : k'.holds = some i)
    (hstands : k'.Stands (s.setOrder i c) p) :
    LocksHeld (s.setOrder i c) (Function.update calls p (some k')) := by
  have hrow (j : Id) (hj : j ≠ i) : (s.setOrder i c).orders j = s.orders j :=
    Function.update_of_ne hj _ _
  have hself : (s.setOrder i c).orders i = c := Function.update_self ..
  refine h.step (fun q j hqp hq => ?_) (fun q j hqp hq => ?_) (fun j hj => ?_) hstands
  · refine hrow j fun hj => hqp ?_
    subst hj
    exact Cell.not_heldBy_of_available havailable hq
  · by_cases hj : j = i
    · subst hj
      rw [hself] at hq
      exact absurd (hc q hq) hqp
    · rwa [hrow j hj] at hq
  · by_cases hji : j = i
    · rw [hji]
      exact hholds
    · rw [hrow j hji] at hj
      exact absurd hj (hkeeps j hji)

/-- The end of the transaction of call `p`. -/
theorem LocksHeld.finish (h : LocksHeld s calls) (f : Cell SalesOrder → Cell SalesOrder)
    (hf : ∀ i, ¬ (s.orders i).heldBy p → f (s.orders i) = s.orders i)
    (hheld : ∀ i q, (f (s.orders i)).heldBy q → (s.orders i).heldBy q ∧ q ≠ p)
    (hs : ∀ i, s'.orders i = f (s.orders i)) (hstands : k'.Stands s' p) :
    LocksHeld s' (Function.update calls p (some k')) := by
  refine h.step (fun q i hqp hq => ?_) (fun q i _ hq => ?_) (fun i hi => ?_) hstands
  · rw [hs]
    exact hf i fun hp => hqp (Cell.heldBy_unique hq hp)
  · rw [hs] at hq
    exact (hheld i q hq).1
  · rw [hs] at hi
    exact absurd rfl (hheld i p hi).2

theorem LocksHeld.commit (h : LocksHeld s calls) (hs : s'.orders = (s.commit p).orders)
    (hstands : k'.Stands s' p) : LocksHeld s' (Function.update calls p (some k')) :=
  h.finish (fun c => c.commit p) (fun _ hp => Cell.commit_of_not_heldBy hp)
    (fun i q hq => ⟨Cell.heldBy_commit hq, fun hqp => Cell.not_heldBy_commit _ p (hqp ▸ hq)⟩)
    (fun i => by rw [hs]; rfl) hstands

theorem LocksHeld.rollback (h : LocksHeld s calls) (hstands : k'.Stands (s.rollback p) p) :
    LocksHeld (s.rollback p) (Function.update calls p (some k')) :=
  h.finish (fun c => c.release p) (fun _ hp => Cell.release_of_not_heldBy hp)
    (fun _ _ hq => ⟨Cell.heldBy_release hq, fun hqp => Cell.not_heldBy_release _ p (hqp ▸ hq)⟩)
    (fun _ => rfl) hstands

theorem LocksHeld.not_held (h : LocksHeld s calls) (hk : calls p = some k)
    (hholds : k.holds = none) (i : Id) : ¬ (s.orders i).heldBy p := by
  intro hi
  obtain ⟨found, hcall, hheld⟩ := h.locks i p hi
  rw [hk] at hcall
  cases hcall
  rw [hholds] at hheld
  cases hheld

theorem LocksHeld.not_held_other (h : LocksHeld s calls) (hk : calls p = some k)
    (hholds : k.holds = some i) {j : Id} (hj : j ≠ i) : ¬ (s.orders j).heldBy p := by
  intro hi
  obtain ⟨found, hcall, hheld⟩ := h.locks j p hi
  rw [hk] at hcall
  cases hcall
  rw [hholds] at hheld
  exact hj (Option.some.inj hheld).symm

/-- A commit changes the row the call has written. -/
theorem LocksHeld.commit_orders (h : LocksHeld s calls) (hk : calls p = some k)
    (hholds : k.holds = some i) {v : Option SalesOrder}
    (hlock : (s.orders i).lock = some ⟨p, some v⟩) :
    (s.commit p).ledger.orders = Function.update s.ledger.orders i v := by
  funext j
  show ((s.orders j).commit p).committed = _
  by_cases hj : j = i
  · subst hj
    rw [Function.update_self]
    exact Cell.commit_committed_of_lock hlock
  · rw [Function.update_of_ne hj, Cell.commit_of_not_heldBy (h.not_held_other hk hholds hj)]
    rfl

/-- Locking or writing a row that is not committed yet changes no ledger. -/
theorem ledger_setOrder {c : Cell SalesOrder} (hc : c.committed = (s.orders i).committed) :
    (s.setOrder i c).ledger = s.ledger := by
  have horders : (fun j => ((s.setOrder i c).orders j).committed) =
      fun j => (s.orders j).committed := by
    funext j
    by_cases hj : j = i
    · subst hj
      show (Function.update s.orders j c j).committed = _
      rw [Function.update_self, hc]
    · show (Function.update s.orders i c j).committed = _
      rw [Function.update_of_ne hj]
  show Ledger.mk _ _ = Ledger.mk _ _
  rw [horders]
  rfl

/-- What a statement of call `p` does to the ledger. -/
inductive Moves (s s' : OrderStore) (p : Nat) : PaymentCall → Prop
  | none {k : PaymentCall} (h : s'.ledger = s.ledger) : Moves s s' p k
  | pay {dto : CreatePaymentDto} {announces isFullyPaid : Bool} {order : SalesOrder}
      (hrow : s.ledger.orders dto.orderId = some order)
      (haccepts : accepts order dto.amount = true)
      (hfull : isFullyPaid = decide ((Payments.pay order dto.amount).paymentStatus = .paid))
      (h : s'.ledger = s.ledger.paid (dto.payment p) order) :
      Moves s s' p (.commitPayment dto announces isFullyPaid)
  | update {i tenantId : Id} {u : OrderUpdate} {order : SalesOrder}
      (hrow : s.ledger.orders i = some order) (happlies : u.applies order = true)
      (h : s'.ledger = s.ledger.updated i (u.change order)) :
      Moves s s' p (.updateCommit i tenantId u)

/-- One statement keeps the locks in order and moves the ledger by one transaction at
most. -/
theorem LocksHeld.next (h : LocksHeld s calls) (hk : calls p = some k) :
    LocksHeld (k.next p s).2 (Function.update calls p (some (k.next p s).1)) ∧
      Moves s (k.next p s).2 p k := by
  have hcalls (hholds : k.holds = none) : ∀ k', calls p = some k' → k'.holds = none := by
    intro k' hk'
    rw [hk] at hk'
    cases hk'
    exact hholds
  cases k with
  | findOrder dto =>
      simp only [PaymentCall.next]
      split
      · exact ⟨h.move (hcalls rfl) rfl trivial, .none rfl⟩
      · split
        · exact ⟨h.move (hcalls rfl) rfl trivial, .none rfl⟩
        · exact ⟨h.move (hcalls rfl) rfl trivial, .none rfl⟩
  | select dto announces =>
      simp only [PaymentCall.next]
      split
      · exact ⟨h.move (hcalls rfl) rfl trivial, .none rfl⟩
      · exact ⟨h.move (hcalls rfl) rfl trivial, .none rfl⟩
  | lock dto announces =>
      simp only [PaymentCall.next]
      split
      · exact ⟨h.move (hcalls rfl) rfl trivial, .none rfl⟩
      rename_i havailable
      rw [Bool.not_eq_false] at havailable
      have hfree := h.not_held hk rfl
      have hlock := Cell.lock_eq_none havailable (hfree dto.orderId)
      rw [Cell.visible_of_not_heldBy (hfree dto.orderId)]
      split
      · exact ⟨h.move (hcalls rfl) rfl trivial, .none rfl⟩
      rename_i order hfind
      obtain ⟨hrow, hid⟩ := Option.filter_eq_some_iff.mp hfind
      split
      · rename_i haccepts
        refine ⟨h.take havailable (fun j _ => hfree j) (fun q hq => ?_) rfl ?_,
          .none (ledger_setOrder (Cell.hold_committed _ p))⟩
        · obtain ⟨l, hl, rfl⟩ := hq
          rw [Cell.hold_lock hlock] at hl
          cases hl
          rfl
        · show ((s.setOrder dto.orderId _).orders dto.orderId).committed = _ ∧ _ ∧ _ ∧
            ((s.setOrder dto.orderId _).orders dto.orderId).lock = _
          simp only [OrderStore.setOrder, Function.update_self]
          exact ⟨(Cell.hold_committed _ p).trans hrow, haccepts, hid, Cell.hold_lock hlock⟩
      · exact ⟨h.move (hcalls rfl) rfl trivial, .none rfl⟩
  | updateOrder dto announces order =>
      obtain ⟨hrow, haccepts, hid, hlock⟩ := h.stands p _ hk
      have hmatch : ((s.orders dto.orderId).visible p).filter (fun row =>
          isOrder dto.orderId dto.tenantId row && row.paidAmount = order.paidAmount &&
            row.paymentStatus ≠ .paid) = some order := by
        rw [Cell.visible_of_hold hlock, hrow]
        have hopen : order.paymentStatus ≠ .paid := by
          intro hpaid
          simp [accepts, settled, hpaid] at haccepts
        simp [hid, hopen]
      simp only [PaymentCall.next, hmatch]
      refine ⟨h.take ?_ (fun j hj => h.not_held_other hk rfl hj) (fun q hq => ?_) rfl ?_,
        .none (ledger_setOrder (Cell.write_committed _ p _))⟩
      · unfold Cell.available
        rw [hlock]
        exact decide_eq_true rfl
      · obtain ⟨l, hl, rfl⟩ := hq
        cases hl
        rfl
      · refine ⟨order, ?_, haccepts, ?_⟩
        · simp only [OrderStore.setOrder, Function.update_self]
          exact hrow
        · simp only [OrderStore.setOrder, Function.update_self]
          rfl
  | insertPayment dto announces =>
      have hpaying : ∃ order, Paying s p dto order := h.stands p _ hk
      exact ⟨h.stay hk rfl rfl hpaying, .none rfl⟩
  | reload dto announces =>
      obtain ⟨order, hpaying⟩ := h.stands p _ hk
      refine ⟨h.stay hk rfl rfl ⟨order, hpaying, ?_⟩, .none rfl⟩
      unfold OrderStore.orderMeets
      rw [Cell.visible_of_write hpaying.2.2]
      rfl
  | commitPayment dto announces isFullyPaid =>
      obtain ⟨order, hpaying, hfull⟩ := h.stands p _ hk
      refine ⟨h.commit rfl ?_, .pay hpaying.1 hpaying.2.1 hfull ?_⟩
      · cases announces with
        | false => trivial
        | true => trivial
      · show Ledger.mk _ _ = Ledger.mk _ _
        exact congrArg (fun orders => Ledger.mk orders (s.payments ++ [dto.payment p]))
          (h.commit_orders hk rfl hpaying.2.2)
  | publish dto isFullyPaid =>
      refine ⟨h.move (hcalls rfl) rfl ?_, .none rfl⟩
      cases isFullyPaid with
      | false => trivial
      | true => trivial
  | publishPaid dto => exact ⟨h.move (hcalls rfl) rfl trivial, .none rfl⟩
  | paid => exact ⟨h.move (hcalls rfl) rfl trivial, .none rfl⟩
  | rejected failure => exact ⟨h.move (hcalls rfl) rfl trivial, .none rfl⟩
  | update id tenantId u =>
      simp only [PaymentCall.next]
      split
      · exact ⟨h.move (hcalls rfl) rfl trivial, .none rfl⟩
      · exact ⟨h.move (hcalls rfl) rfl trivial, .none rfl⟩
  | updateLock id tenantId u =>
      simp only [PaymentCall.next]
      split
      · exact ⟨h.move (hcalls rfl) rfl trivial, .none rfl⟩
      rename_i havailable
      rw [Bool.not_eq_false] at havailable
      have hfree := h.not_held hk rfl
      rw [Cell.visible_of_not_heldBy (hfree id)]
      split
      · exact ⟨h.move (hcalls rfl) rfl trivial, .none rfl⟩
      rename_i order hfind
      obtain ⟨hrow, hmatch⟩ := Option.filter_eq_some_iff.mp hfind
      rw [Bool.and_eq_true] at hmatch
      refine ⟨h.take havailable (fun j _ => hfree j) (fun q hq => ?_) rfl ⟨order, ?_, hmatch.2, ?_⟩,
        .none (ledger_setOrder (Cell.write_committed _ p _))⟩
      · obtain ⟨l, hl, rfl⟩ := hq
        cases hl
        rfl
      · simp only [OrderStore.setOrder, Function.update_self]
        exact hrow
      · simp only [OrderStore.setOrder, Function.update_self]
        rfl
  | updateCommit id tenantId u =>
      obtain ⟨order, hrow, happlies, hlock⟩ := h.stands p _ hk
      refine ⟨h.commit rfl trivial, .update hrow happlies ?_⟩
      exact congrArg (fun orders => Ledger.mk orders s.payments) (h.commit_orders hk rfl hlock)
  | updated done => exact ⟨h.move (hcalls rfl) rfl trivial, .none rfl⟩
  | stopped => exact ⟨h.move (hcalls rfl) rfl trivial, .none rfl⟩

theorem Moves.step (h : Moves s s' p k) : s'.ledger = s.ledger ∨ s.ledger.Step s'.ledger := by
  cases h with
  | none h => exact .inl h
  | pay hrow haccepts hfull h =>
      rw [h]
      exact .inr (.pay hrow haccepts)
  | update hrow happlies h =>
      rw [h]
      exact .inr (.update hrow happlies)

theorem ledger_rollback (s : OrderStore) (p : Nat) : (s.rollback p).ledger = s.ledger := by
  show Ledger.mk _ _ = Ledger.mk _ _
  simp only [OrderStore.rollback, Cell.release_committed]

theorem LocksHeld.spawn (h : LocksHeld s calls) (hp : calls p = none) (hk : k.Stands s p) :
    LocksHeld s (Function.update calls p (some k)) :=
  h.move (fun k' hk' => by rw [hp] at hk'; cases hk') rfl hk

theorem start_stands (r : PaymentRequest) (s : OrderStore) (p : Nat) :
    (payments.start r).Stands s p := by
  cases r with
  | pay dto => trivial
  | createPayment dto => trivial
  | update id tenantId u => trivial

theorem stop_stands (k : PaymentCall) (s : OrderStore) (p : Nat) :
    (payments.stop p k s).1.Stands (s.rollback p) p := by
  show (if k.holds = none then k else .stopped).Stands _ p
  split
  · cases k with
    | updateOrder => contradiction
    | insertPayment => contradiction
    | reload => contradiction
    | commitPayment => contradiction
    | updateCommit => contradiction
    | _ => trivial
  · trivial

/-- A property of the ledger that every transaction keeps holds after every run. -/
theorem run_ledger {P : Ledger → Prop} (hP : ∀ L L', Ledger.Step L L' → P L → P L')
    (es : List PaymentRunEvent) {w : World OrderStore PaymentCall}
    (hlocks : LocksHeld w.store w.at_) (hw : P w.store.ledger) :
    LocksHeld (payments.run w es).store (payments.run w es).at_ ∧
      P (payments.run w es).store.ledger := by
  refine payments.run_invariant (I := fun s calls => LocksHeld s calls ∧ P s.ledger)
    (fun s calls p r h hp => ⟨h.1.spawn hp (start_stands r s p), h.2⟩)
    (fun s calls p _ k h hk => ?_) (fun _ _ o _ => nomatch o) (fun s calls p k h hk => ?_) es
    ⟨hlocks, hw⟩
  · obtain ⟨hnext, hmoves⟩ := h.1.next hk
    refine ⟨hnext, ?_⟩
    rcases hmoves.step with hsame | hstep
    · show P (k.next p s).2.ledger
      rw [hsame]
      exact h.2
    · exact hP _ _ hstep h.2
  · refine ⟨h.1.rollback (stop_stands k s p), ?_⟩
    show P (s.rollback p).ledger
    rw [ledger_rollback]
    exact h.2

/-! ## Money -/

section Money

variable {L L' : Ledger} {order : SalesOrder} {amount : Int} {payments : List Payment}

/-- What the payments of an order and its row say of each other, whatever the total
is. -/
structure Booked (order : SalesOrder) (payments : List Payment) : Prop where
  sum : order.paidAmount = (payments.map Payment.amount).sum
  positive : ∀ payment ∈ payments, 0 < payment.amount
  bounded : payments ≠ [] → order.paidAmount ≤ order.totalAmount
  status : order.paymentStatus = .paid ↔
    order.paidAmount = order.totalAmount ∧ 0 < order.totalAmount
  regular : order.orderMode = .regular →
    payments = [] ∨ ∃ payment, payments = [payment] ∧ payment.amount = order.totalAmount

theorem accepts_iff : accepts order amount = true ↔
    order.status ≠ .cancelled ∧ settled order = false ∧ 0 < amount ∧
      amount ≤ outstandingAmount order ∧
      (order.orderMode = .regular → amount = outstandingAmount order) := by
  unfold accepts
  simp only [Bool.and_eq_true, Bool.not_eq_true', Bool.or_eq_false_iff, decide_eq_false_iff_not,
    Bool.and_eq_false_iff, not_le, not_lt, not_not, and_assoc]
  constructor
  · rintro ⟨h1, h2, h3, h4, h5⟩
    exact ⟨h1, h2, h3, h4, fun hr => h5.resolve_left fun hn => hn hr⟩
  · rintro ⟨h1, h2, h3, h4, h5⟩
    refine ⟨h1, h2, h3, h4, ?_⟩
    by_cases hr : order.orderMode = .regular
    · exact .inr (h5 hr)
    · exact .inl hr

/-- A payment that was accepted is booked. -/
theorem Booked.pay {payment : Payment} (h : Booked order payments)
    (haccepts : accepts order payment.amount = true) :
    Booked (pay order payment.amount) (payments ++ [payment]) := by
  obtain ⟨-, hopen, hpositive, hle, hregular⟩ := accepts_iff.mp haccepts
  have hunpaid : order.paymentStatus ≠ .paid := by
    intro hpaid
    simp [settled, hpaid] at hopen
  unfold outstandingAmount at hle hregular
  have hnonneg : 0 ≤ order.paidAmount := by
    rw [h.sum]
    refine List.sum_nonneg fun x hx => ?_
    obtain ⟨y, hy, rfl⟩ := List.mem_map.mp hx
    exact (h.positive y hy).le
  refine ⟨?_, ?_, ?_, ?_, ?_⟩
  · show order.paidAmount + payment.amount = _
    rw [h.sum, List.map_append, List.sum_append]
    simp
  · intro x hx
    rcases List.mem_append.mp hx with hx | hx
    · exact h.positive x hx
    · rw [List.mem_singleton.mp hx]
      exact hpositive
  · intro _
    show order.paidAmount + payment.amount ≤ order.totalAmount
    omega
  · show (if order.paidAmount + payment.amount ≥ order.totalAmount then PaymentStatus.paid
        else .pending) = .paid ↔
      order.paidAmount + payment.amount = order.totalAmount ∧ 0 < order.totalAmount
    split
    · simp only [true_iff]
      omega
    · refine iff_of_false (fun h => by cases h) ?_
      omega
  · intro hmode
    have hamount := hregular hmode
    rcases h.regular hmode with hnone | ⟨x, hone, hx⟩
    · refine .inr ⟨payment, by rw [hnone]; rfl, ?_⟩
      have hzero : order.paidAmount = 0 := by
        rw [h.sum, hnone]
        rfl
      show payment.amount = order.totalAmount
      omega
    · -- a second payment would have found the order paid
      refine absurd (h.status.mpr ?_) hunpaid
      have hpaid : order.paidAmount = order.totalAmount := by
        rw [h.sum, hone]
        simpa using hx
      have := h.positive x (by rw [hone]; exact List.mem_singleton_self x)
      omega

/-- Only a payment touches what `Booked` is about. -/
theorem Booked.change (h : Booked order payments) (u : OrderUpdate) :
    Booked (u.change order) payments := by
  cases u with
  | cancelOrder outletId => exact ⟨h.sum, h.positive, h.bounded, h.status, h.regular⟩
  | markPaid => exact ⟨h.sum, h.positive, h.bounded, h.status, h.regular⟩
  | releaseToKitchen now => exact ⟨h.sum, h.positive, h.bounded, h.status, h.regular⟩
  | markCompleted => exact ⟨h.sum, h.positive, h.bounded, h.status, h.regular⟩
  | kitchen outletId status expectedStatus =>
      exact ⟨h.sum, h.positive, h.bounded, h.status, h.regular⟩

theorem change_total (u : OrderUpdate) (order : SalesOrder) :
    (u.change order).totalAmount = order.totalAmount := by
  cases u with
  | cancelOrder outletId => rfl
  | markPaid => rfl
  | releaseToKitchen now => rfl
  | markCompleted => rfl
  | kitchen outletId status expectedStatus => rfl

theorem paymentsOf_paid_self (L : Ledger) (payment : Payment) (order : SalesOrder) :
    (L.paid payment order).paymentsOf payment.orderId =
      L.paymentsOf payment.orderId ++ [payment] := by
  show (L.payments ++ [payment]).filter _ = _
  rw [List.filter_append]
  simp [Ledger.paymentsOf]

theorem paymentsOf_paid_of_ne (L : Ledger) {payment : Payment} (order : SalesOrder)
    (hi : i ≠ payment.orderId) : (L.paid payment order).paymentsOf i = L.paymentsOf i := by
  show (L.payments ++ [payment]).filter _ = _
  rw [List.filter_append]
  simp [Ledger.paymentsOf, hi.symm]

/-- A transaction on order `i`, or one that leaves it and its payments alone. -/
theorem Ledger.Step.cases_order (h : L.Step L') (i : Id) :
    (L'.orders i = L.orders i ∧ L'.paymentsOf i = L.paymentsOf i) ∨
    (∃ payment order, payment.orderId = i ∧ L.orders i = some order ∧
      accepts order payment.amount = true ∧
      L'.orders i = some (Payments.pay order payment.amount) ∧
      L'.paymentsOf i = L.paymentsOf i ++ [payment]) ∨
    (∃ u order, L.orders i = some order ∧ OrderUpdate.applies u order = true ∧
      L'.orders i = some (u.change order) ∧ L'.paymentsOf i = L.paymentsOf i) := by
  cases h with
  | @pay payment order hrow haccepts =>
      by_cases hi : i = payment.orderId
      · subst hi
        exact .inr (.inl ⟨payment, order, rfl, hrow, haccepts, Function.update_self ..,
          paymentsOf_paid_self L payment order⟩)
      · exact .inl ⟨Function.update_of_ne hi _ _, paymentsOf_paid_of_ne L order hi⟩
  | @update j u order hrow happlies =>
      by_cases hi : i = j
      · subst hi
        exact .inr (.inr ⟨u, order, hrow, happlies, Function.update_self .., rfl⟩)
      · exact .inl ⟨Function.update_of_ne hi _ _, rfl⟩

/-- Order `i` is there with its total, and its payments are booked. -/
def BookedAt (i : Id) (total : Int) (L : Ledger) : Prop :=
  ∃ order, L.orders i = some order ∧ order.totalAmount = total ∧ Booked order (L.paymentsOf i)

theorem Ledger.Step.bookedAt {total : Int} (h : L.Step L') (hL : BookedAt i total L) :
    BookedAt i total L' := by
  obtain ⟨order, hrow, htotal, hbooked⟩ := hL
  rcases h.cases_order i with ⟨horder, hpayments⟩ |
    ⟨payment, found, -, hfound, haccepts, horder, hpayments⟩ |
    ⟨u, found, hfound, -, horder, hpayments⟩
  · exact ⟨order, horder.trans hrow, htotal, by rw [hpayments]; exact hbooked⟩
  · rw [hrow] at hfound
    cases hfound
    exact ⟨_, horder, htotal, by rw [hpayments]; exact hbooked.pay haccepts⟩
  · rw [hrow] at hfound
    cases hfound
    exact ⟨_, horder, (change_total u order).trans htotal, by
      rw [hpayments]; exact hbooked.change u⟩

/-- Order `i` is CANCELLED and has these payments. -/
def CancelledWith (i : Id) (payments : List Payment) (L : Ledger) : Prop :=
  (∃ order, L.orders i = some order ∧ order.status = .cancelled) ∧ L.paymentsOf i = payments

theorem change_cancelled {u : OrderUpdate} (happlies : u.applies order = true)
    (hstatus : order.status = .cancelled) : (u.change order).status = .cancelled := by
  cases u with
  | cancelOrder outletId => rfl
  | markPaid => simp [OrderUpdate.applies, hstatus] at happlies
  | releaseToKitchen now => exact hstatus
  | markCompleted => simp [OrderUpdate.applies, hstatus] at happlies
  | kitchen outletId status expectedStatus =>
      -- the kitchen goes nowhere from CANCELLED
      simp only [OrderUpdate.applies, decide_eq_true_eq, hstatus] at happlies
      cases expectedStatus with
      | cancelled => exact absurd happlies.1 (List.not_mem_nil)
      | new => cases happlies.2.2.1
      | queued => cases happlies.2.2.1
      | cooking => cases happlies.2.2.1
      | ready => cases happlies.2.2.1
      | served => cases happlies.2.2.1
      | recalled => cases happlies.2.2.1

theorem Ledger.Step.cancelledWith (h : L.Step L') (hL : CancelledWith i payments L) :
    CancelledWith i payments L' := by
  obtain ⟨⟨order, hrow, hstatus⟩, hpays⟩ := hL
  rcases h.cases_order i with ⟨horder, hpayments⟩ |
    ⟨payment, found, -, hfound, haccepts, -, -⟩ |
    ⟨u, found, hfound, happlies, horder, hpayments⟩
  · exact ⟨⟨order, horder.trans hrow, hstatus⟩, hpayments.trans hpays⟩
  · rw [hrow] at hfound
    cases hfound
    exact absurd hstatus (accepts_iff.mp haccepts).1
  · rw [hrow] at hfound
    cases hfound
    exact ⟨⟨_, horder, change_cancelled happlies hstatus⟩, hpayments.trans hpays⟩

end Money

/-! ## Whole runs -/

/-- The ledger of an order as it should be. -/
structure Balanced (order : SalesOrder) (payments : List Payment) : Prop where
  nonneg : 0 ≤ order.paidAmount
  le_total : order.paidAmount ≤ order.totalAmount
  sum : order.paidAmount = (payments.map Payment.amount).sum
  status : order.paymentStatus = .paid ↔
    order.paidAmount = order.totalAmount ∧ 0 < order.totalAmount
  regular : order.orderMode = .regular →
    payments = [] ∨ ∃ payment, payments = [payment] ∧ payment.amount = order.totalAmount

theorem Booked.balanced {order : SalesOrder} {payments : List Payment}
    (h : Booked order payments) (htotal : 0 ≤ order.totalAmount) : Balanced order payments := by
  have hnonneg : 0 ≤ order.paidAmount := by
    rw [h.sum]
    refine List.sum_nonneg fun x hx => ?_
    obtain ⟨y, hy, rfl⟩ := List.mem_map.mp hx
    exact (h.positive y hy).le
  refine ⟨hnonneg, ?_, h.sum, h.status, h.regular⟩
  by_cases hnone : payments = []
  · rw [h.sum, hnone]
    exact htotal
  · exact h.bounded hnone

/-- Orders as they are created: nothing is paid. -/
def Opened (orders : Id → Option SalesOrder) : Prop :=
  ∀ i order, orders i = some order →
    order.status = .pending ∧ order.paymentStatus = .pending ∧ order.paidAmount = 0

theorem Opened.booked {orders : Id → Option SalesOrder} {order : SalesOrder}
    (h : Opened orders) (hi : orders i = some order) : Booked order [] := by
  obtain ⟨-, hpending, hzero⟩ := h i order hi
  refine ⟨hzero, fun payment hmem => ?_, fun hne => absurd rfl hne, ?_, fun _ => .inl rfl⟩
  · cases hmem
  · rw [hpending]
    refine iff_of_false (fun hpaid => by cases hpaid) ?_
    omega

def OrderStore.opened (orders : Id → Option SalesOrder) : OrderStore :=
  ⟨fun i => .stored (orders i), [], []⟩

theorem locksHeld_opened (orders : Id → Option SalesOrder) :
    LocksHeld (.opened orders) fun _ => none where
  locks := fun i p hp => by
    obtain ⟨l, hl, -⟩ := hp
    cases hl
  stands := fun p k hk => by cases hk

/-- A call that has made its transaction, or was stopped in it. -/
def PaymentCall.concluded : PaymentCall → Bool
  | .publish _ _ => true
  | .publishPaid _ => true
  | .paid => true
  | .updated _ => true
  | .stopped => true
  | _ => false

theorem next_concluded (hk : k.concluded = true) : (k.next p s).1.concluded = true := by
  cases k with
  | publish dto isFullyPaid =>
      cases isFullyPaid with
      | false => rfl
      | true => rfl
  | publishPaid dto => rfl
  | paid => rfl
  | updated done => rfl
  | stopped => rfl
  | _ => cases hk

/-- A statement that changes the ledger concludes its call. -/
theorem Moves.concluded (h : Moves s (k.next p s).2 p k)
    (hchange : (k.next p s).2.ledger ≠ s.ledger) : (k.next p s).1.concluded = true := by
  cases h with
  | none h => exact absurd h hchange
  | @pay dto announces isFullyPaid =>
      cases announces with
      | false => rfl
      | true => rfl
  | update => rfl

theorem run_concluded (es : List PaymentRunEvent) {w : World OrderStore PaymentCall}
    (hw : ∃ k, w.at_ p = some k ∧ k.concluded = true) :
    ∃ k, (payments.run w es).at_ p = some k ∧ k.concluded = true := by
  refine payments.run_invariant
    (I := fun _ calls => ∃ k, calls p = some k ∧ k.concluded = true)
    (fun s calls q r h hq => ?_) (fun s calls q _ k' h hk' => ?_) (fun _ _ o _ => nomatch o)
    (fun s calls q k' h hk' => ?_) es hw
  · obtain ⟨k, hk, hc⟩ := h
    refine ⟨k, ?_, hc⟩
    rw [Function.update_of_ne]
    · exact hk
    · rintro rfl
      rw [hq] at hk
      cases hk
  · obtain ⟨k, hk, hc⟩ := h
    by_cases hqp : p = q
    · subst hqp
      rw [hk] at hk'
      cases hk'
      exact ⟨_, Function.update_self .., next_concluded hc⟩
    · exact ⟨k, by rw [Function.update_of_ne hqp]; exact hk, hc⟩
  · obtain ⟨k, hk, hc⟩ := h
    by_cases hqp : p = q
    · subst hqp
      refine ⟨_, Function.update_self .., ?_⟩
      cases hk.symm.trans hk'
      show PaymentCall.concluded (if k'.holds = none then k' else .stopped) = true
      split
      · exact hc
      · rfl
    · exact ⟨k, by rw [Function.update_of_ne hqp]; exact hk, hc⟩

/-- The statements of a call that ends rejected change nothing. -/
theorem rejected_changes_nothing {w : World OrderStore PaymentCall}
    (hlocks : LocksHeld w.store w.at_) (rest : List PaymentRunEvent)
    (failure : Option PaymentFailure)
    (hend : (payments.run (payments.exec w (.step p ())) rest).at_ p = some (.rejected failure)) :
    (payments.exec w (.step p ())).store.ledger = w.store.ledger := by
  obtain ⟨_, _, he, -⟩ | ⟨q, c, k, he, -, hk, hs, ha⟩ | ⟨o, -⟩ | ⟨_, _, he, -⟩ | ⟨hs, -⟩ :=
    payments.exec_cases w (.step p ())
  · cases he
  · cases he
    rw [hs]
    by_contra hchange
    have hconcluded : ∃ k, (payments.exec w (.step p ())).at_ p = some k ∧ k.concluded = true :=
      ⟨_, by rw [ha, Function.update_self]; rfl, (hlocks.next hk).2.concluded hchange⟩
    obtain ⟨k', hk', hc⟩ := run_concluded rest hconcluded
    rw [hend] at hk'
    cases hk'
    cases hc
  · exact nomatch o
  · cases he
  · rw [hs]

/-- What is claimed of order `i` after the run `es`: its ledger is balanced, once it is
CANCELLED no payment of it commits, and the calls that were rejected have changed
nothing. -/
structure LedgerKept (start : OrderStore) (i : Id) (es : List PaymentRunEvent) : Prop where
  balanced : ∃ order, ((payments.run (World.idle start) es).store.orders i).committed = some order ∧
    Balanced order ((payments.run (World.idle start) es).store.ledger.paymentsOf i)
  cancelled : ∀ order, ((payments.run (World.idle start) es).store.orders i).committed =
    some order →
    order.status = .cancelled → ∀ later,
      (payments.run (World.idle start) (es ++ later)).store.ledger.paymentsOf i =
        (payments.run (World.idle start) es).store.ledger.paymentsOf i
  rejected : ∀ p failure, (payments.run (World.idle start) es).at_ p = some (.rejected failure) →
    ∀ before rest, es = before ++ .step p () :: rest →
      (payments.run (World.idle start) (before ++ [.step p ()])).store.ledger =
        (payments.run (World.idle start) before).store.ledger

/-- Whatever calls are made on it and however their statements interleave, the ledger
of an order is kept if and only if its total is not negative. -/
theorem payment_ledger_kept_iff (orders : Id → Option SalesOrder) (hopened : Opened orders) (i : Id)
    (order : SalesOrder) (hi : orders i = some order) :
    (∀ es, LedgerKept (.opened orders) i es) ↔ 0 ≤ order.totalAmount := by
  obtain ⟨-, -, hzero⟩ := hopened i order hi
  constructor
  · intro h
    obtain ⟨row, hrow, hbalanced⟩ := (h []).balanced
    have hsame : row = order := Option.some.inj (hrow.symm.trans hi)
    subst hsame
    have := hbalanced.le_total
    omega
  · intro htotal es
    have hlocks : ∀ es, LocksHeld (payments.run (World.idle (.opened orders)) es).store
        (payments.run (World.idle (.opened orders)) es).at_ := fun es =>
      (run_ledger (P := fun _ => True) (fun _ _ _ _ => trivial) es (locksHeld_opened orders)
        trivial).1
    have hstart : BookedAt i order.totalAmount (OrderStore.opened orders).ledger :=
      ⟨order, hi, rfl, hopened.booked hi⟩
    refine ⟨?_, fun row hrow hstatus later => ?_, fun p failure hend before rest hes => ?_⟩
    · obtain ⟨row, hrow, hsame, hbooked⟩ :=
        (run_ledger (w := World.idle (.opened orders)) (fun _ _ hstep hL => hstep.bookedAt hL) es
          (locksHeld_opened orders) hstart).2
      exact ⟨row, hrow, hbooked.balanced (by omega)⟩
    · rw [System.run_append]
      exact ((run_ledger (fun _ _ hstep hL => hstep.cancelledWith hL) later (hlocks es)
        ⟨⟨row, hrow, hstatus⟩, rfl⟩).2).2
    · rw [System.run_append]
      refine rejected_changes_nothing (hlocks before) rest failure ?_
      rw [hes, System.run_append] at hend
      exact hend

theorem two_ordered : 1 ≤ 2 := by decide

/-- One order, of two pieces of a product at this price. -/
def orderOfTwo (price : Int) (i : Id) : Option SalesOrder :=
  if i = 1 then createOrder [⟨1, 1, price⟩] 1 1 none [⟨1, 2, two_ordered⟩] .openBill else none

theorem orderOfTwo_opened (price : Int) : Opened (orderOfTwo price) := by
  intro i order h
  unfold orderOfTwo at h
  split at h
  · cases h
    exact ⟨rfl, rfl, rfl⟩
  · cases h

/-- The first statements of a call of `pay` on the order of two. -/
def payOrderOfTwo (statements : Nat) : List PaymentRunEvent :=
  .spawn 0 (.pay ⟨1, 1, 10, .cash⟩) :: (List.replicate statements ()).map (.step 0)

theorem payment_ledger_kept_example : LedgerKept (.opened (orderOfTwo 5)) 1 (payOrderOfTwo 9) :=
  (payment_ledger_kept_iff (orderOfTwo 5) (orderOfTwo_opened 5) 1
    ⟨1, 1, none, .pending, .openBill, .pending, 0, 10, none, [⟨1, 2, two_ordered⟩]⟩
    (by decide +kernel)).mpr (by decide) (payOrderOfTwo 9)

/-- A product with a negative price gives an order on which nothing is paid and more
than the total at once. -/
theorem negative_total_not_kept : ¬ LedgerKept (.opened (orderOfTwo (-5))) 1 [] := by
  rintro ⟨⟨order, hrow, hbalanced⟩, -, -⟩
  have horder : orderOfTwo (-5) 1 =
      some ⟨1, 1, none, .pending, .openBill, .pending, 0, -10, none, [⟨1, 2, two_ordered⟩]⟩ := by
    decide +kernel
  cases hrow.symm.trans horder
  exact absurd hbalanced.le_total (by decide)

end Payments
end Orders
end ERP
