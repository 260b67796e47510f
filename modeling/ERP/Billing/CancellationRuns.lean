import ERP.Billing.Cancellation

/-!
# A cancelled invoice is not being charged

The locks keep a claim and a cancellation of one invoice apart, with one gap: the
cancelling update has looked at the attempt and does not have the invoice yet.  In
a run in which no claim commits while a cancellation of the same invoice stands in
that gap, no invoice is cancelled while its attempt is under way.
-/

namespace ERP
namespace Billing

open Lib

/-- No attempt is committed for the invoice, or a rejected one. -/
def Free (s : BillingCells) (i : Id) : Prop :=
  ∀ attempt, (s.attempts i).committed = some attempt → attempt.state = .rejected

/-- Call `p` has locked the pending invoice and not written it. -/
def Takes (s : BillingCells) (p : Nat) (i : Id) : Prop :=
  (s.invoices i).lock = some ⟨p, none⟩ ∧
    ∃ row, (s.invoices i).committed = some row ∧ row.status = .pending

/-- Call `p` has written the invoice, with this status. -/
def Writes (s : BillingCells) (p : Nat) (i : Id) (status : InvoiceStatus) : Prop :=
  ∃ row, (s.invoices i).lock = some ⟨p, some (some row)⟩ ∧ row.status = status

/-- Call `p` has written the attempt, and not as a rejection. -/
def Starts (s : BillingCells) (p : Nat) (i : Id) : Prop :=
  ∃ attempt, (s.attempts i).lock = some ⟨p, some (some attempt)⟩ ∧ attempt.state ≠ .rejected

namespace LockCall

/-- The invoice a call holds. -/
def holdsInvoice : LockCall → Option Id
  | .cancelReload i _ | .cancelCommit i _ => some i
  | .insertAttempt x | .readAttempt x | .reclaimUpdate x | .reclaimLock x => some x.i
  | .commitClaim x | .commitLost x => some x.i
  | .completeAttempt x _ _ | .completeAttemptLock x _ _ | .completeCommit x _ _ => some x.i
  | _ => none

/-- The attempt a call holds, by its invoice. -/
def holdsAttempt : LockCall → Option Id
  | .commitClaim x | .completeCommit x _ _ => some x.i
  | _ => none

/-- The invoice whose attempt a call takes to be absent or rejected. -/
def freeAt : LockCall → Option Id
  | .cancelLock i _ _ | .cancelReload i _ | .cancelCommit i _ => some i
  | .commitClaim x => some x.i
  | _ => none

/-- The invoice whose attempt a call takes to be neither. -/
def takenAt : LockCall → Option Id
  | .completeCommit x _ _ | .charge x | .await x => some x.i
  | .recordUpdate x .rejected _ | .recordLock x .rejected _ => some x.i
  | _ => none

/-- The invoice a call has claimed and may reject. -/
def ownerOf : LockCall → Option Id
  | .charge x | .await x => some x.i
  | .recordUpdate x .rejected _ | .recordLock x .rejected _ => some x.i
  | _ => none

end LockCall

/-- What a call holds, where it stands. -/
def Holds (s : BillingCells) (p : Nat) : LockCall → Prop
  | .cancelReload i _ | .cancelCommit i _ => Writes s p i .cancelled
  | .insertAttempt x | .readAttempt x | .reclaimUpdate x | .reclaimLock x => Takes s p x.i
  | .commitLost x => Takes s p x.i
  | .commitClaim x => Takes s p x.i ∧ Starts s p x.i
  | .completeAttempt x _ _ | .completeAttemptLock x _ _ => Writes s p x.i .pending
  | .completeCommit x _ _ => Writes s p x.i .pending ∧ Starts s p x.i
  | _ => True

/-- The invariant.  `owner` is the call that last claimed an invoice. -/
structure LockSafe (owner : Id → Option Nat) (s : BillingCells)
    (calls : Nat → Option LockCall) : Prop where
  cancelled : ∀ i row, (s.invoices i).committed = some row → row.status = .cancelled → Free s i
  invoiceLocks : ∀ i p, (s.invoices i).heldBy p →
    ∃ k, calls p = some k ∧ k.holdsInvoice = some i
  attemptLocks : ∀ i p, (s.attempts i).heldBy p →
    ∃ k, calls p = some k ∧ k.holdsAttempt = some i
  holds : ∀ p k, calls p = some k → Holds s p k
  free : ∀ p k i, calls p = some k → k.freeAt = some i → Free s i
  taken : ∀ p k i, calls p = some k → k.takenAt = some i → ¬ Free s i
  owned : ∀ p k i, calls p = some k → k.ownerOf = some i → owner i = some p

variable {owner owner' : Id → Option Nat} {s s' : BillingCells}
  {calls : Nat → Option LockCall} {p q : Nat} {k k' : LockCall} {i j : Id}

theorem Takes.heldBy (h : Takes s p i) : (s.invoices i).heldBy p := ⟨_, h.1, rfl⟩

theorem Writes.heldBy {status : InvoiceStatus} (h : Writes s p i status) :
    (s.invoices i).heldBy p := by
  obtain ⟨row, hl, -⟩ := h
  exact ⟨_, hl, rfl⟩

theorem Starts.heldBy (h : Starts s p i) : (s.attempts i).heldBy p := by
  obtain ⟨a, hl, -⟩ := h
  exact ⟨_, hl, rfl⟩

/-- What a call holds depends on the rows it holds. -/
theorem Holds.frame (h : Holds s p k)
    (hinvoice : ∀ j, (s.invoices j).heldBy p → s'.invoices j = s.invoices j)
    (hattempt : ∀ j, (s.attempts j).heldBy p → s'.attempts j = s.attempts j) :
    Holds s' p k := by
  have htakes {j : Id} (ht : Takes s p j) : Takes s' p j := by
    unfold Takes
    rw [hinvoice j ht.heldBy]
    exact ht
  have hwrites {j : Id} {status : InvoiceStatus} (ht : Writes s p j status) :
      Writes s' p j status := by
    unfold Writes
    rw [hinvoice j ht.heldBy]
    exact ht
  have hstarts {j : Id} (ht : Starts s p j) : Starts s' p j := by
    unfold Starts
    rw [hattempt j ht.heldBy]
    exact ht
  cases k with
  | cancelReload i tenantId => exact hwrites h
  | cancelCommit i tenantId => exact hwrites h
  | insertAttempt x => exact htakes h
  | readAttempt x => exact htakes h
  | reclaimUpdate x => exact htakes h
  | reclaimLock x => exact htakes h
  | commitLost x => exact htakes h
  | commitClaim x => exact ⟨htakes h.1, hstarts h.2⟩
  | completeAttempt x id recovers => exact hwrites h
  | completeAttemptLock x id recovers => exact hwrites h
  | completeCommit x id recovers => exact ⟨hwrites h.1, hstarts h.2⟩
  | _ => trivial

theorem lockUpdate_cases {l : LockCall} (h : Function.update calls p (some k') q = some l) :
    (q = p ∧ l = k') ∨ (q ≠ p ∧ calls q = some l) := by
  by_cases hq : q = p
  · rw [hq, Function.update_self] at h
    exact .inl ⟨hq, (Option.some.inj h).symm⟩
  · rw [Function.update_of_ne hq] at h
    exact .inr ⟨hq, h⟩

/-- A step that leaves alone what the other calls hold and take for granted. -/
theorem LockSafe.step_of (h : LockSafe owner s calls)
    (hcancelled : ∀ i row, (s'.invoices i).committed = some row → row.status = .cancelled →
      Free s' i)
    (hinvoiceMine : ∀ i, (s'.invoices i).heldBy p → k'.holdsInvoice = some i)
    (hattemptMine : ∀ i, (s'.attempts i).heldBy p → k'.holdsAttempt = some i)
    (hinvoice : ∀ i q, q ≠ p → ((s'.invoices i).heldBy q ∨ (s.invoices i).heldBy q) →
      s'.invoices i = s.invoices i)
    (hattempt : ∀ i q, q ≠ p → ((s'.attempts i).heldBy q ∨ (s.attempts i).heldBy q) →
      s'.attempts i = s.attempts i)
    (hothers : ∀ q l i, q ≠ p → calls q = some l → (l.freeAt = some i → Free s' i) ∧
      (l.takenAt = some i → ¬ Free s' i) ∧ (l.ownerOf = some i → owner' i = some q))
    (hholds : Holds s' p k') (hfree : ∀ i, k'.freeAt = some i → Free s' i)
    (htaken : ∀ i, k'.takenAt = some i → ¬ Free s' i)
    (howned : ∀ i, k'.ownerOf = some i → owner' i = some p) :
    LockSafe owner' s' (Function.update calls p (some k')) where
  cancelled := hcancelled
  invoiceLocks := by
    intro i q hq
    by_cases hqp : q = p
    · rw [hqp, Function.update_self]
      exact ⟨k', rfl, hinvoiceMine i (hqp ▸ hq)⟩
    · rw [Function.update_of_ne hqp]
      exact h.invoiceLocks i q (hinvoice i q hqp (.inl hq) ▸ hq)
  attemptLocks := by
    intro i q hq
    by_cases hqp : q = p
    · rw [hqp, Function.update_self]
      exact ⟨k', rfl, hattemptMine i (hqp ▸ hq)⟩
    · rw [Function.update_of_ne hqp]
      exact h.attemptLocks i q (hattempt i q hqp (.inl hq) ▸ hq)
  holds := by
    intro q l hl
    rcases lockUpdate_cases hl with ⟨rfl, rfl⟩ | ⟨hqp, hl'⟩
    · exact hholds
    · exact (h.holds q l hl').frame (fun j hj => hinvoice j q hqp (.inr hj))
        fun j hj => hattempt j q hqp (.inr hj)
  free := by
    intro q l i hl hi
    rcases lockUpdate_cases hl with ⟨-, rfl⟩ | ⟨hqp, hl'⟩
    · exact hfree i hi
    · exact (hothers q l i hqp hl').1 hi
  taken := by
    intro q l i hl hi
    rcases lockUpdate_cases hl with ⟨-, rfl⟩ | ⟨hqp, hl'⟩
    · exact htaken i hi
    · exact (hothers q l i hqp hl').2.1 hi
  owned := by
    intro q l i hl hi
    rcases lockUpdate_cases hl with ⟨rfl, rfl⟩ | ⟨hqp, hl'⟩
    · exact howned i hi
    · exact (hothers q l i hqp hl').2.2 hi

/-- The new state of the stepping call, when the attempts stand as they stood. -/
structure Arrives (owner : Id → Option Nat) (s s' : BillingCells) (p : Nat) (k' : LockCall) :
    Prop where
  holds : Holds s' p k'
  free : ∀ i, k'.freeAt = some i → Free s i
  taken : ∀ i, k'.takenAt = some i → ¬ Free s i
  owned : ∀ i, k'.ownerOf = some i → owner i = some p

/-- A step after which every attempt is free that was, and no other. -/
theorem LockSafe.step_same (h : LockSafe owner s calls) (hFree : ∀ i, Free s' i ↔ Free s i)
    (hcancelled : ∀ i row, (s'.invoices i).committed = some row → row.status = .cancelled →
      Free s i)
    (hinvoiceMine : ∀ i, (s'.invoices i).heldBy p → k'.holdsInvoice = some i)
    (hattemptMine : ∀ i, (s'.attempts i).heldBy p → k'.holdsAttempt = some i)
    (hinvoice : ∀ i q, q ≠ p → ((s'.invoices i).heldBy q ∨ (s.invoices i).heldBy q) →
      s'.invoices i = s.invoices i)
    (hattempt : ∀ i q, q ≠ p → ((s'.attempts i).heldBy q ∨ (s.attempts i).heldBy q) →
      s'.attempts i = s.attempts i)
    (harrives : Arrives owner s s' p k') :
    LockSafe owner s' (Function.update calls p (some k')) := by
  refine h.step_of (fun i row hrow hstatus => (hFree i).mpr (hcancelled i row hrow hstatus))
    hinvoiceMine hattemptMine hinvoice hattempt (fun q l i _ hl => ⟨?_, ?_, h.owned q l i hl⟩)
    harrives.holds (fun i hi => (hFree i).mpr (harrives.free i hi))
    (fun i hi hf => harrives.taken i hi ((hFree i).mp hf)) harrives.owned
  · exact fun hi => (hFree i).mpr (h.free q l i hl hi)
  · exact fun hi hf => h.taken q l i hl hi ((hFree i).mp hf)

/-- The rows a call holds are those of where it stands. -/
theorem LockSafe.holdsInvoice (h : LockSafe owner s calls) (hk : calls p = some k)
    (hi : (s.invoices i).heldBy p) : k.holdsInvoice = some i := by
  obtain ⟨l, hl, hli⟩ := h.invoiceLocks i p hi
  rw [hk] at hl
  rw [Option.some.inj hl]
  exact hli

theorem LockSafe.holdsAttempt (h : LockSafe owner s calls) (hk : calls p = some k)
    (hi : (s.attempts i).heldBy p) : k.holdsAttempt = some i := by
  obtain ⟨l, hl, hli⟩ := h.attemptLocks i p hi
  rw [hk] at hl
  rw [Option.some.inj hl]
  exact hli

/-- A step that writes nothing. -/
theorem LockSafe.move (h : LockSafe owner s calls) (hk : calls p = some k)
    (hI : k'.holdsInvoice = k.holdsInvoice) (hA : k'.holdsAttempt = k.holdsAttempt)
    (harrives : Arrives owner s s p k') :
    LockSafe owner s (Function.update calls p (some k')) := by
  refine h.step_same (fun _ => Iff.rfl) h.cancelled ?_ ?_ (fun _ _ _ _ => rfl)
    (fun _ _ _ _ => rfl) harrives
  · intro i hi
    rw [hI]
    exact h.holdsInvoice hk hi
  · intro i hi
    rw [hA]
    exact h.holdsAttempt hk hi

/-- A call that holds no invoice takes one that nobody holds. -/
theorem LockSafe.setInvoice {c : Cell Invoice} (h : LockSafe owner s calls)
    (hk : calls p = some k) (hI : k.holdsInvoice = none) (hA : k'.holdsAttempt = k.holdsAttempt)
    (hfree : (s.invoices i).lock = none) (hc : c.committed = (s.invoices i).committed)
    (hheld : ∀ q, c.heldBy q → q = p) (hI' : k'.holdsInvoice = some i)
    (harrives : Arrives owner s (s.setInvoice i c) p k') :
    LockSafe owner (s.setInvoice i c) (Function.update calls p (some k')) := by
  have hnone (q : Nat) : ¬ (s.invoices i).heldBy q := by
    rintro ⟨l, hl, -⟩
    rw [hfree] at hl
    cases hl
  have hself : (s.setInvoice i c).invoices i = c := Function.update_self _ _ _
  have hother {j : Id} (hj : j ≠ i) : (s.setInvoice i c).invoices j = s.invoices j :=
    Function.update_of_ne hj _ _
  refine h.step_same (fun _ => Iff.rfl) ?_ ?_ ?_ ?_ (fun _ _ _ _ => rfl) harrives
  · intro j row hrow
    by_cases hj : j = i
    · rw [hj, hself, hc] at hrow
      rw [hj]
      exact h.cancelled i row hrow
    · rw [hother hj] at hrow
      exact h.cancelled j row hrow
  · intro j hp
    by_cases hj : j = i
    · rw [hj]
      exact hI'
    · rw [hother hj] at hp
      have := h.holdsInvoice hk hp
      rw [hI] at this
      cases this
  · intro j hp
    rw [hA]
    exact h.holdsAttempt hk hp
  · intro j q hqp hq
    by_cases hj : j = i
    · rw [hj, hself] at hq
      rcases hq with hq | hq
      · exact absurd (hheld q hq) hqp
      · exact absurd hq (hnone q)
    · exact hother hj

/-- A call that holds no attempt takes one that nobody holds. -/
theorem LockSafe.setAttempt {c : Cell XenditPaymentRequestAttempt} (h : LockSafe owner s calls)
    (hk : calls p = some k) (hA : k.holdsAttempt = none) (hI : k'.holdsInvoice = k.holdsInvoice)
    (hfree : (s.attempts i).lock = none) (hc : c.committed = (s.attempts i).committed)
    (hheld : ∀ q, c.heldBy q → q = p) (hA' : k'.holdsAttempt = some i)
    (harrives : Arrives owner s (s.setAttempt i c) p k') :
    LockSafe owner (s.setAttempt i c) (Function.update calls p (some k')) := by
  have hnone (q : Nat) : ¬ (s.attempts i).heldBy q := by
    rintro ⟨l, hl, -⟩
    rw [hfree] at hl
    cases hl
  have hself : (s.setAttempt i c).attempts i = c := Function.update_self _ _ _
  have hother {j : Id} (hj : j ≠ i) : (s.setAttempt i c).attempts j = s.attempts j :=
    Function.update_of_ne hj _ _
  refine h.step_same (fun j => ?_) h.cancelled ?_ ?_ (fun _ _ _ _ => rfl) ?_ harrives
  · unfold Free
    by_cases hj : j = i
    · rw [hj, hself, hc]
    · rw [hother hj]
  · intro j hp
    rw [hI]
    exact h.holdsInvoice hk hp
  · intro j hp
    by_cases hj : j = i
    · rw [hj]
      exact hA'
    · rw [hother hj] at hp
      have := h.holdsAttempt hk hp
      rw [hA] at this
      cases this
  · intro j q hqp hq
    by_cases hj : j = i
    · rw [hj, hself] at hq
      rcases hq with hq | hq
      · exact absurd (hheld q hq) hqp
      · exact absurd hq (hnone q)
    · exact hother hj

/-- A transaction is rolled back. -/
theorem LockSafe.rollback (h : LockSafe owner s calls)
    (harrives : Arrives owner s (s.rollback p) p k') :
    LockSafe owner (s.rollback p) (Function.update calls p (some k')) := by
  refine h.step_same (fun i => ?_) (fun i row hrow => ?_) (fun i hp => ?_) (fun i hp => ?_)
    (fun i q hqp hq => ?_) (fun i q hqp hq => ?_) harrives
  · show (∀ a, ((s.attempts i).release p).committed = some a → _) ↔ _
    rw [Cell.release_committed]
    exact Iff.rfl
  · have hrow' : ((s.invoices i).release p).committed = some row := hrow
    rw [Cell.release_committed] at hrow'
    exact h.cancelled i row hrow'
  · exact absurd hp (Cell.not_heldBy_release _ _)
  · exact absurd hp (Cell.not_heldBy_release _ _)
  · have hheld : (s.invoices i).heldBy q := hq.elim Cell.heldBy_release id
    exact Cell.release_of_not_heldBy fun hp => hqp (Cell.heldBy_unique hheld hp)
  · have hheld : (s.attempts i).heldBy q := hq.elim Cell.heldBy_release id
    exact Cell.release_of_not_heldBy fun hp => hqp (Cell.heldBy_unique hheld hp)

/-- A commit cancels an invoice only when its attempt is free. -/
theorem LockSafe.commit_cancelled (h : LockSafe owner s calls) (hk : calls p = some k)
    {row : Invoice} (hrow : ((s.invoices i).commit p).committed = some row)
    (hstatus : row.status = .cancelled) : Free s i := by
  by_cases hp : (s.invoices i).heldBy p
  · have hi := h.holdsInvoice hk hp
    have hholds := h.holds p k hk
    -- a locked row stays as it is, a correlated one is PENDING
    have htakes (ht : Takes s p i) : Free s i := by
      rw [Cell.commit_committed_of_hold ht.1] at hrow
      exact h.cancelled i row hrow hstatus
    have hpending (ht : Writes s p i .pending) : Free s i := by
      obtain ⟨written, hl, hw⟩ := ht
      rw [Cell.commit_committed_of_lock hl] at hrow
      rw [← Option.some.inj hrow, hw] at hstatus
      cases hstatus
    cases k with
    | cancelReload j tenantId => exact h.free p _ i hk hi
    | cancelCommit j tenantId => exact h.free p _ i hk hi
    | insertAttempt x => exact htakes (Option.some.inj hi ▸ hholds)
    | readAttempt x => exact htakes (Option.some.inj hi ▸ hholds)
    | reclaimUpdate x => exact htakes (Option.some.inj hi ▸ hholds)
    | reclaimLock x => exact htakes (Option.some.inj hi ▸ hholds)
    | commitLost x => exact htakes (Option.some.inj hi ▸ hholds)
    | commitClaim x => exact htakes (Option.some.inj hi ▸ hholds.1)
    | completeAttempt x id recovers => exact hpending (Option.some.inj hi ▸ hholds)
    | completeAttemptLock x id recovers => exact hpending (Option.some.inj hi ▸ hholds)
    | completeCommit x id recovers => exact hpending (Option.some.inj hi ▸ hholds.1)
    | _ => cases hi
  · rw [Cell.commit_of_not_heldBy hp] at hrow
    exact h.cancelled i row hrow hstatus

theorem commit_invoice_other (hqp : q ≠ p)
    (hq : ((s.commit p).invoices i).heldBy q ∨ (s.invoices i).heldBy q) :
    (s.commit p).invoices i = s.invoices i := by
  have hheld : (s.invoices i).heldBy q := hq.elim Cell.heldBy_commit id
  exact Cell.commit_of_not_heldBy fun hp => hqp (Cell.heldBy_unique hheld hp)

theorem commit_attempt_other (hqp : q ≠ p)
    (hq : ((s.commit p).attempts i).heldBy q ∨ (s.attempts i).heldBy q) :
    (s.commit p).attempts i = s.attempts i := by
  have hheld : (s.attempts i).heldBy q := hq.elim Cell.heldBy_commit id
  exact Cell.commit_of_not_heldBy fun hp => hqp (Cell.heldBy_unique hheld hp)

/-- A commit that leaves the free attempts free and the others not. -/
theorem LockSafe.commit_same (h : LockSafe owner s calls) (hk : calls p = some k)
    (hFree : ∀ i, Free (s.commit p) i ↔ Free s i) (harrives : Arrives owner s (s.commit p) p k') :
    LockSafe owner (s.commit p) (Function.update calls p (some k')) := by
  refine h.step_same hFree (fun i row hrow hstatus => h.commit_cancelled hk hrow hstatus)
    (fun i hp => absurd hp (Cell.not_heldBy_commit _ _))
    (fun i hp => absurd hp (Cell.not_heldBy_commit _ _))
    (fun i q hqp hq => commit_invoice_other hqp hq)
    (fun i q hqp hq => commit_attempt_other hqp hq) harrives

/-- The commit of a call that holds no attempt. -/
theorem LockSafe.commit_invoice (h : LockSafe owner s calls) (hk : calls p = some k)
    (hA : k.holdsAttempt = none) (harrives : Arrives owner s (s.commit p) p k') :
    LockSafe owner (s.commit p) (Function.update calls p (some k')) := by
  refine h.commit_same hk (fun i => ?_) harrives
  have hsame : (s.attempts i).commit p = s.attempts i := by
    refine Cell.commit_of_not_heldBy fun hp => ?_
    have := h.holdsAttempt hk hp
    rw [hA] at this
    cases this
  show (∀ a, ((s.attempts i).commit p).committed = some a → _) ↔ _
  rw [hsame]
  exact Iff.rfl

/-- The attempt that a commit starts is not free. -/
theorem Starts.not_free_commit (h : Starts s p i) : ¬ Free (s.commit p) i := by
  obtain ⟨attempt, hl, hstate⟩ := h
  exact fun hf => hstate (hf attempt (Cell.commit_committed_of_lock hl))

theorem LockSafe.free_commit_other (h : LockSafe owner s calls) (hk : calls p = some k)
    (hj : k.holdsAttempt ≠ some j) : Free (s.commit p) j ↔ Free s j := by
  have hsame : (s.attempts j).commit p = s.attempts j :=
    Cell.commit_of_not_heldBy fun hp => hj (h.holdsAttempt hk hp)
  show (∀ a, ((s.attempts j).commit p).committed = some a → _) ↔ _
  rw [hsame]
  exact Iff.rfl

/-- The commit of a completed request. -/
theorem LockSafe.commit_complete {x : ClaimContext} {id : String} {recovers : Bool}
    (h : LockSafe owner s calls) (hk : calls p = some (.completeCommit x id recovers))
    (harrives : Arrives owner s (s.commit p) p k') :
    LockSafe owner (s.commit p) (Function.update calls p (some k')) := by
  refine h.commit_same hk (fun i => ?_) harrives
  by_cases hi : i = x.i
  · have hholds := h.holds p _ hk
    rw [hi]
    exact iff_of_false hholds.2.not_free_commit (h.taken p _ x.i hk rfl)
  · refine h.free_commit_other hk fun hc => hi ?_
    exact (Option.some.inj hc).symm

/-- The commit of a claim, when no cancellation of the invoice has looked at the
attempt and waits for the invoice. -/
theorem LockSafe.commit_claim {x : ClaimContext} (h : LockSafe owner s calls)
    (hk : calls p = some (.commitClaim x))
    (hgap : ∀ q tenantId version, calls q ≠ some (.cancelLock x.i tenantId version))
    (hk' : k' = .charge x ∨ k' = .done) :
    LockSafe (Function.update owner x.i (some p)) (s.commit p)
      (Function.update calls p (some k')) := by
  obtain ⟨htakes, hstarts⟩ := h.holds p _ hk
  have hfree : Free s x.i := h.free p _ x.i hk rfl
  have hnot : ¬ Free (s.commit p) x.i := hstarts.not_free_commit
  have hother {j : Id} (hj : j ≠ x.i) : Free (s.commit p) j ↔ Free s j :=
    h.free_commit_other hk fun hc => hj (Option.some.inj hc).symm
  refine h.step_of (fun i row hrow hstatus => ?_)
    (fun i hp => absurd hp (Cell.not_heldBy_commit _ _))
    (fun i hp => absurd hp (Cell.not_heldBy_commit _ _))
    (fun i q hqp hq => commit_invoice_other hqp hq)
    (fun i q hqp hq => commit_attempt_other hqp hq) (fun q l j hqp hl => ?_) ?_ ?_ ?_ ?_
  · -- the claimed invoice is PENDING and stays so
    by_cases hi : i = x.i
    · obtain ⟨hl, pending, hget, hpending⟩ := htakes
      rw [hi] at hrow
      have hrow' : ((s.invoices x.i).commit p).committed = some row := hrow
      rw [Cell.commit_committed_of_hold hl, hget] at hrow'
      rw [← Option.some.inj hrow', hpending] at hstatus
      cases hstatus
    · exact (hother hi).mpr (h.commit_cancelled hk hrow hstatus)
  · by_cases hj : j = x.i
    · subst hj
      -- whoever takes the attempt to be free holds the invoice, or stands in the gap
      have hheld (hq : (s.invoices x.i).heldBy q) : False :=
        hqp (Cell.heldBy_unique hq htakes.heldBy)
      refine ⟨fun hf => ?_, fun _ => hnot, fun ho => ?_⟩
      · have hholds := h.holds q l hl
        cases l with
        | cancelLock i tenantId version =>
            have hi : i = x.i := Option.some.inj hf
            exact absurd (hi ▸ hl) (hgap q tenantId version)
        | cancelReload i tenantId =>
            exact (hheld (Option.some.inj hf ▸ Writes.heldBy hholds)).elim
        | cancelCommit i tenantId =>
            exact (hheld (Option.some.inj hf ▸ Writes.heldBy hholds)).elim
        | commitClaim y =>
            exact (hheld (Option.some.inj hf ▸ Takes.heldBy hholds.1)).elim
        | _ => cases hf
      · have ht : l.takenAt = some x.i := by
          cases l with
          | charge y => exact ho
          | await y => exact ho
          | recordUpdate y outcome id =>
              cases outcome with
              | rejected => exact ho
              | unknown => cases ho
          | recordLock y outcome id =>
              cases outcome with
              | rejected => exact ho
              | unknown => cases ho
          | _ => cases ho
        exact absurd hfree (h.taken q l x.i hl ht)
    · refine ⟨fun hf => (hother hj).mpr (h.free q l j hl hf),
        fun ht hf => h.taken q l j hl ht ((hother hj).mp hf), fun ho => ?_⟩
      rw [Function.update_of_ne hj]
      exact h.owned q l j hl ho
  · rcases hk' with rfl | rfl
    · trivial
    · trivial
  · intro i hi
    rcases hk' with rfl | rfl
    · cases hi
    · cases hi
  · intro i hi
    rcases hk' with rfl | rfl
    · exact Option.some.inj hi ▸ hnot
    · cases hi
  · intro i hi
    rcases hk' with rfl | rfl
    · rw [← Option.some.inj hi, Function.update_self]
    · cases hi

/-- An outcome is recorded on an attempt in progress.  A rejection makes the attempt
free, and it is the charging call itself that records it. -/
theorem LockSafe.record {x : ClaimContext} {outcome : Outcome} {id : Option String}
    {old attempt : XenditPaymentRequestAttempt} {c : Cell XenditPaymentRequestAttempt}
    (h : LockSafe owner s calls) (hk : calls p = some (.recordLock x outcome id))
    (hlock : (s.attempts x.i).lock = none) (hold : (s.attempts x.i).committed = some old)
    (hprogress : old.state = .inProgress) (hc : c.committed = some attempt) (hcl : c.lock = none)
    (hstate : attempt.state = outcome.state) :
    LockSafe owner (s.setAttempt x.i c) (Function.update calls p (some .done)) := by
  have hself : (s.setAttempt x.i c).attempts x.i = c := Function.update_self _ _ _
  have hother {j : Id} (hj : j ≠ x.i) : (s.setAttempt x.i c).attempts j = s.attempts j :=
    Function.update_of_ne hj _ _
  have hFree {j : Id} (hj : j ≠ x.i) : Free (s.setAttempt x.i c) j ↔ Free s j := by
    unfold Free
    rw [hother hj]
  have hbefore : ¬ Free s x.i := by
    intro hf
    have := hf old hold
    rw [hprogress] at this
    cases this
  have hunheld (q : Nat) : ¬ (s.attempts x.i).heldBy q := by
    rintro ⟨l, hl, -⟩
    rw [hlock] at hl
    cases hl
  have hunheld' (q : Nat) : ¬ c.heldBy q := by
    rintro ⟨l, hl, -⟩
    rw [hcl] at hl
    cases hl
  have hafter : Free (s.setAttempt x.i c) x.i ↔ outcome = .rejected := by
    unfold Free
    rw [hself, hc]
    constructor
    · intro hf
      have hr := hf attempt rfl
      rw [hstate] at hr
      cases outcome with
      | rejected => rfl
      | unknown => cases hr
    · rintro rfl a ha
      rw [← Option.some.inj ha]
      exact hstate
  refine h.step_of (fun j row hrow hstatus => ?_) (fun j hp => ?_) (fun j hp => ?_)
    (fun _ _ _ _ => rfl) (fun j q _ hq => ?_) (fun q l j hqp hl => ?_) trivial
    (fun j hj => by cases hj) (fun j hj => by cases hj) (fun j hj => by cases hj)
  · have hf := h.cancelled j row hrow hstatus
    by_cases hj : j = x.i
    · exact absurd (hj ▸ hf) hbefore
    · exact (hFree hj).mpr hf
  · have := h.holdsInvoice hk hp
    cases this
  · by_cases hj : j = x.i
    · rw [hj, hself] at hp
      exact absurd hp (hunheld' p)
    · rw [hother hj] at hp
      have := h.holdsAttempt hk hp
      cases this
  · by_cases hj : j = x.i
    · rw [hj, hself] at hq
      rcases hq with hq | hq
      · exact absurd hq (hunheld' q)
      · exact absurd hq (hunheld q)
    · exact hother hj
  · refine ⟨fun hf => ?_, fun ht => ?_, fun ho => h.owned q l j hl ho⟩
    · have hs := h.free q l j hl hf
      by_cases hj : j = x.i
      · exact absurd (hj ▸ hs) hbefore
      · exact (hFree hj).mpr hs
    · have hs := h.taken q l j hl ht
      by_cases hj : j = x.i
      · subst hj
        rw [hafter]
        rintro rfl
        -- the claim of the invoice is this call's, so no other call stands on it
        have hmine : owner x.i = some p := h.owned p _ x.i hk rfl
        have hown (ho : l.ownerOf = some x.i) : False := by
          have hq := h.owned q l x.i hl ho
          rw [hmine] at hq
          exact hqp (Option.some.inj hq).symm
        cases l with
        | completeCommit y id recovers =>
            have hholds := h.holds q _ hl
            exact hunheld q (Option.some.inj ht ▸ hholds.2.heldBy)
        | charge y => exact hown ht
        | await y => exact hown ht
        | recordUpdate y outcome id =>
            cases outcome with
            | rejected => exact hown ht
            | unknown => cases ht
        | recordLock y outcome id =>
            cases outcome with
            | rejected => exact hown ht
            | unknown => cases ht
        | _ => cases ht
      · rw [hFree hj]
        exact hs

/-! ## Steps -/

/-- Nothing is asked of a call that holds nothing and takes nothing for granted. -/
theorem arrives_of_idle (hholds : Holds s' p k') (hfree : k'.freeAt = none)
    (htaken : k'.takenAt = none) (howned : k'.ownerOf = none) : Arrives owner s s' p k' where
  holds := hholds
  free := fun i hi => by rw [hfree] at hi; cases hi
  taken := fun i hi => by rw [htaken] at hi; cases hi
  owned := fun i hi => by rw [howned] at hi; cases hi

theorem arrives_done : Arrives owner s s' p .done := arrives_of_idle trivial rfl rfl rfl

theorem arrives_notCompleted {x : ClaimContext} {id : String} {recovers : Bool} :
    Arrives owner s s' p (.notCompleted x id recovers) := by
  unfold LockCall.notCompleted
  split
  · exact arrives_done
  · exact arrives_of_idle trivial rfl rfl rfl

theorem notCompleted_holds {x : ClaimContext} {id : String} {recovers : Bool} :
    (LockCall.notCompleted x id recovers).holdsInvoice = none ∧
      (LockCall.notCompleted x id recovers).holdsAttempt = none := by
  unfold LockCall.notCompleted
  split
  · exact ⟨rfl, rfl⟩
  · exact ⟨rfl, rfl⟩

/-- A call that holds nothing ends. -/
theorem LockSafe.done (h : LockSafe owner s calls) (hk : calls p = some k)
    (hI : k.holdsInvoice = none) (hA : k.holdsAttempt = none) :
    LockSafe owner s (Function.update calls p (some .done)) :=
  h.move hk hI.symm hA.symm arrives_done

/-- A completion that failed before it held anything. -/
theorem LockSafe.notCompleted (h : LockSafe owner s calls) (hk : calls p = some k)
    (hI : k.holdsInvoice = none) (hA : k.holdsAttempt = none) (x : ClaimContext) (id : String)
    (recovers : Bool) :
    LockSafe owner s (Function.update calls p (some (.notCompleted x id recovers))) :=
  h.move hk (notCompleted_holds.1.trans hI.symm) (notCompleted_holds.2.trans hA.symm)
    arrives_notCompleted

/-- A completion that is rolled back. -/
theorem LockSafe.rollback_notCompleted (h : LockSafe owner s calls) (x : ClaimContext)
    (id : String) (recovers : Bool) :
    LockSafe owner (s.rollback p)
      (Function.update calls p (some (.notCompleted x id recovers))) :=
  h.rollback arrives_notCompleted

theorem afterAttempt_arrives (x : ClaimContext) (attempt : Option XenditPaymentRequestAttempt)
    {free : LockCall} (hfree : Arrives owner s s' p free) (hI : free.holdsInvoice = none)
    (hA : free.holdsAttempt = none) :
    Arrives owner s s' p (.afterAttempt x attempt free) ∧
      (LockCall.afterAttempt x attempt free).holdsInvoice = none ∧
      (LockCall.afterAttempt x attempt free).holdsAttempt = none := by
  unfold LockCall.afterAttempt
  split
  · exact ⟨hfree, hI, hA⟩
  · split
    · exact ⟨arrives_of_idle trivial rfl rfl rfl, rfl, rfl⟩
    · split
      · exact ⟨arrives_done, rfl, rfl⟩
      · exact ⟨hfree, hI, hA⟩

theorem LockSafe.visible_invoice (h : LockSafe owner s calls) (hk : calls p = some k)
    (hI : k.holdsInvoice = none) : (s.invoices i).visible p = (s.invoices i).committed := by
  refine Cell.visible_of_not_heldBy fun hp => ?_
  have := h.holdsInvoice hk hp
  rw [hI] at this
  cases this

theorem LockSafe.visible_attempt (h : LockSafe owner s calls) (hk : calls p = some k)
    (hA : k.holdsAttempt = none) : (s.attempts i).visible p = (s.attempts i).committed := by
  refine Cell.visible_of_not_heldBy fun hp => ?_
  have := h.holdsAttempt hk hp
  rw [hA] at this
  cases this

theorem LockSafe.invoice_unlocked (h : LockSafe owner s calls) (hk : calls p = some k)
    (hI : k.holdsInvoice = none) (ha : ¬ (s.invoices i).available p = false) :
    (s.invoices i).lock = none := by
  refine Cell.lock_eq_none (by simpa using ha) fun hp => ?_
  have := h.holdsInvoice hk hp
  rw [hI] at this
  cases this

theorem LockSafe.attempt_unlocked (h : LockSafe owner s calls) (hk : calls p = some k)
    (hA : k.holdsAttempt = none) (ha : ¬ (s.attempts i).available p = false) :
    (s.attempts i).lock = none := by
  refine Cell.lock_eq_none (by simpa using ha) fun hp => ?_
  have := h.holdsAttempt hk hp
  rw [hA] at this
  cases this

theorem LockSafe.free_of_cancellable (h : LockSafe owner s calls) (hk : calls p = some k)
    (hA : k.holdsAttempt = none) {tenantId : Id} (hc : s.cancellable p i tenantId = true) :
    Free s i := by
  intro attempt ha
  unfold BillingCells.cancellable at hc
  rw [Bool.and_eq_true, h.visible_attempt hk hA, ha] at hc
  simpa using hc.2

theorem heldBy_write {V : Type} {c : Cell V} {v : Option V} (h : (c.write p v).heldBy q) :
    q = p := by
  obtain ⟨l, hl, rfl⟩ := h
  exact (congrArg RowLock.holder (Option.some.inj hl)).symm

/-- The steps of a cancellation. -/
theorem LockSafe.step_cancelLock {tenantId : Id} {version : Nat} (h : LockSafe owner s calls)
    (hk : calls p = some (.cancelLock i tenantId version)) (hasGateway : Bool) (reply : Reply) :
    LockSafe owner ((LockCall.cancelLock i tenantId version).next hasGateway p reply s).2
      (Function.update calls p
        (some ((LockCall.cancelLock i tenantId version).next hasGateway p reply s).1)) := by
  have hfree : Free s i := h.free p _ i hk rfl
  have hdone := h.done hk rfl rfl
  unfold LockCall.next
  dsimp only
  split
  · refine h.move hk rfl rfl
      ⟨trivial, fun j hj => ?_, (fun j hj => by cases hj), fun j hj => by cases hj⟩
    exact Option.some.inj hj ▸ hfree
  · rename_i havailable
    split
    · exact hdone
    · split
      · exact hdone
      · rename_i invoice hvisible
        split
        · have hlock := h.invoice_unlocked hk rfl havailable
          refine h.setInvoice hk rfl rfl hlock rfl (fun q hq => heldBy_write hq) rfl
            ⟨⟨{ invoice with status := .cancelled }, ?_, rfl⟩, fun j hj => ?_,
              (fun j hj => by cases hj), fun j hj => by cases hj⟩
          · show ((Function.update s.invoices i _) i).lock = _
            rw [Function.update_self]
            rfl
          · exact Option.some.inj hj ▸ hfree
        · exact hdone

theorem LockSafe.step_claimLock {x : ClaimContext} (h : LockSafe owner s calls)
    (hk : calls p = some (.claimLock x)) (hasGateway : Bool) (reply : Reply) :
    LockSafe owner ((LockCall.claimLock x).next hasGateway p reply s).2
      (Function.update calls p (some ((LockCall.claimLock x).next hasGateway p reply s).1)) := by
  unfold LockCall.next
  dsimp only
  split
  · exact h.move hk rfl rfl (arrives_of_idle trivial rfl rfl rfl)
  · rename_i havailable
    split
    · exact h.done hk rfl rfl
    · split
      · rename_i hmeets
        have hlock := h.invoice_unlocked hk rfl havailable
        have hhold : (s.invoices x.i).hold p = { s.invoices x.i with lock := some ⟨p, none⟩ } := by
          unfold Cell.hold
          rw [hlock]
        rw [hhold]
        refine h.setInvoice hk rfl rfl hlock rfl ?_ rfl (arrives_of_idle ?_ rfl rfl rfl)
        · rintro q ⟨l, hl, rfl⟩
          exact (congrArg RowLock.holder (Option.some.inj hl)).symm
        · unfold BillingCells.invoiceMeets at hmeets
          rw [h.visible_invoice hk rfl] at hmeets
          obtain ⟨row, hrow, hclaimable⟩ := (Option.any_eq_true _ _).mp hmeets
          have hpending := (isPending_iff.mp (isClaimable_iff.mp hclaimable).1).2.2.2
          refine ⟨?_, row, ?_, hpending⟩
          · show ((Function.update s.invoices x.i _) x.i).lock = _
            rw [Function.update_self]
          · show ((Function.update s.invoices x.i _) x.i).committed = _
            rw [Function.update_self]
            exact hrow
      · exact h.move hk rfl rfl (arrives_of_idle trivial rfl rfl rfl)

/-- A claim writes the attempt of an invoice it has locked, when that is free. -/
theorem LockSafe.claims {x : ClaimContext} {attempt : XenditPaymentRequestAttempt}
    (h : LockSafe owner s calls) (hk : calls p = some k) (hA : k.holdsAttempt = none)
    (hI : k.holdsInvoice = some x.i) (htakes : Takes s p x.i)
    (hlock : (s.attempts x.i).lock = none) (hfree : Free s x.i)
    (hstate : attempt.state = .inProgress) :
    LockSafe owner (s.setAttempt x.i ((s.attempts x.i).write p (some attempt)))
      (Function.update calls p (some (.commitClaim x))) := by
  refine h.setAttempt hk hA hI.symm hlock rfl (fun q hq => heldBy_write hq) rfl
    ⟨⟨htakes, attempt, ?_, ?_⟩, fun j hj => ?_, (fun j hj => by cases hj),
      fun j hj => by cases hj⟩
  · show ((Function.update s.attempts x.i _) x.i).lock = _
    rw [Function.update_self]
    rfl
  · rw [hstate]
    exact fun hc => AttemptState.noConfusion hc
  · exact Option.some.inj hj ▸ hfree

theorem LockSafe.step_insertAttempt {x : ClaimContext} (h : LockSafe owner s calls)
    (hk : calls p = some (.insertAttempt x)) (hasGateway : Bool) (reply : Reply) :
    LockSafe owner ((LockCall.insertAttempt x).next hasGateway p reply s).2
      (Function.update calls p
        (some ((LockCall.insertAttempt x).next hasGateway p reply s).1)) := by
  have htakes : Takes s p x.i := h.holds p _ hk
  unfold LockCall.next
  dsimp only
  split
  · exact h.move hk rfl rfl (arrives_of_idle htakes rfl rfl rfl)
  · rename_i hnone
    split
    · exact h.move hk rfl rfl (arrives_of_idle htakes rfl rfl rfl)
    · rename_i havailable
      split
      · exact h.rollback arrives_done
      · refine h.claims hk rfl rfl htakes (h.attempt_unlocked hk rfl havailable) ?_ rfl
        intro a ha
        rw [hnone] at ha
        cases ha

theorem LockSafe.step_reclaimLock {x : ClaimContext} (h : LockSafe owner s calls)
    (hk : calls p = some (.reclaimLock x)) (hasGateway : Bool) (reply : Reply) :
    LockSafe owner ((LockCall.reclaimLock x).next hasGateway p reply s).2
      (Function.update calls p (some ((LockCall.reclaimLock x).next hasGateway p reply s).1)) := by
  have htakes : Takes s p x.i := h.holds p _ hk
  unfold LockCall.next
  dsimp only
  split
  · exact h.move hk rfl rfl (arrives_of_idle htakes rfl rfl rfl)
  · rename_i havailable
    split
    · exact h.rollback arrives_done
    · split
      · exact h.move hk rfl rfl (arrives_of_idle htakes rfl rfl rfl)
      · rename_i attempt hvisible
        rw [h.visible_attempt hk rfl, Option.filter_eq_some_iff] at hvisible
        obtain ⟨hget, hreclaimable⟩ := hvisible
        refine h.claims hk rfl rfl htakes (h.attempt_unlocked hk rfl havailable) ?_ rfl
        intro a ha
        rw [hget] at ha
        rw [← Option.some.inj ha]
        rw [isReclaimable, Bool.and_eq_true, decide_eq_true_iff] at hreclaimable
        exact hreclaimable.2

theorem LockSafe.step_recordLock {x : ClaimContext} {outcome : Outcome} {id : Option String}
    (h : LockSafe owner s calls) (hk : calls p = some (.recordLock x outcome id))
    (hasGateway : Bool) (reply : Reply) :
    LockSafe owner ((LockCall.recordLock x outcome id).next hasGateway p reply s).2
      (Function.update calls p
        (some ((LockCall.recordLock x outcome id).next hasGateway p reply s).1)) := by
  unfold LockCall.next
  dsimp only
  split
  · rw [← hk, Function.update_eq_self]
    exact h
  · rename_i havailable
    split
    · exact h.done hk rfl rfl
    · split
      · exact h.done hk rfl rfl
      · rename_i attempt hvisible
        rw [h.visible_attempt hk rfl, Option.filter_eq_some_iff] at hvisible
        obtain ⟨hget, hprogress⟩ := hvisible
        rw [isInProgress, Bool.and_eq_true, decide_eq_true_iff] at hprogress
        have hwrite : (((s.attempts x.i).write p (some (attempt.record outcome.state id)))).lock =
            some ⟨p, some (some (attempt.record outcome.state id))⟩ := rfl
        refine h.record hk (h.attempt_unlocked hk rfl havailable) hget hprogress.2
          (Cell.commit_committed_of_lock hwrite) ?_ rfl
        unfold Cell.commit
        rw [hwrite]
        simp

theorem LockSafe.step_completeInvoiceLock {x : ClaimContext} {id : String} {recovers : Bool}
    (h : LockSafe owner s calls) (hk : calls p = some (.completeInvoiceLock x id recovers))
    (hasGateway : Bool) (reply : Reply) :
    LockSafe owner ((LockCall.completeInvoiceLock x id recovers).next hasGateway p reply s).2
      (Function.update calls p
        (some ((LockCall.completeInvoiceLock x id recovers).next hasGateway p reply s).1)) := by
  have hnot := h.notCompleted hk rfl rfl x id recovers
  unfold LockCall.next
  dsimp only
  split
  · exact h.move hk rfl rfl (arrives_of_idle trivial rfl rfl rfl)
  · rename_i havailable
    split
    · exact hnot
    · split
      · exact hnot
      · rename_i invoice hvisible
        rw [Option.filter_eq_some_iff] at hvisible
        have hpending := (isPending_iff.mp (isClaimable_iff.mp hvisible.2).1).2.2.2
        refine h.setInvoice hk rfl rfl (h.invoice_unlocked hk rfl havailable) rfl
          (fun q hq => heldBy_write hq) rfl
          (arrives_of_idle ⟨invoice.correlate x.invoiceNumber id, ?_, ?_⟩ rfl rfl rfl)
        · show ((Function.update s.invoices x.i _) x.i).lock = _
          rw [Function.update_self]
          rfl
        · exact hpending

theorem LockSafe.step_completeAttemptLock {x : ClaimContext} {id : String} {recovers : Bool}
    (h : LockSafe owner s calls) (hk : calls p = some (.completeAttemptLock x id recovers))
    (hasGateway : Bool) (reply : Reply) :
    LockSafe owner ((LockCall.completeAttemptLock x id recovers).next hasGateway p reply s).2
      (Function.update calls p
        (some ((LockCall.completeAttemptLock x id recovers).next hasGateway p reply s).1)) := by
  have hwrites : Writes s p x.i .pending := h.holds p _ hk
  have hnot := h.rollback_notCompleted (p := p) x id recovers
  unfold LockCall.next
  dsimp only
  split
  · exact h.move hk rfl rfl (arrives_of_idle hwrites rfl rfl rfl)
  · rename_i havailable
    split
    · exact hnot
    · split
      · exact hnot
      · rename_i attempt hvisible
        rw [h.visible_attempt hk rfl, Option.filter_eq_some_iff] at hvisible
        obtain ⟨hget, hcompletable⟩ := hvisible
        rw [isCompletable, Bool.and_eq_true, Bool.and_eq_true, Bool.or_eq_true,
          decide_eq_true_iff, decide_eq_true_iff] at hcompletable
        refine h.setAttempt hk rfl rfl (h.attempt_unlocked hk rfl havailable) rfl
          (fun q hq => heldBy_write hq) rfl
          ⟨⟨hwrites, attempt.complete id, ?_, fun hc => AttemptState.noConfusion hc⟩,
            (fun j hj => by cases hj), fun j hj hf => ?_, fun j hj => by cases hj⟩
        · show ((Function.update s.attempts x.i _) x.i).lock = _
          rw [Function.update_self]
          rfl
        · rw [← Option.some.inj hj] at hf
          have hrejected := hf attempt hget
          rcases hcompletable.1.2 with hs | hs
          · rw [hs] at hrejected
            cases hrejected
          · rw [hs] at hrejected
            cases hrejected

/-- A step keeps the invariant, if it is not the commit of a claim on an invoice
whose cancellation stands in the gap. -/
theorem LockSafe.step (h : LockSafe owner s calls) (hk : calls p = some k) (hasGateway : Bool)
    (reply : Reply)
    (hgap : ∀ x, k = .commitClaim x → reply.delivery ≠ .failed →
      ∀ q tenantId version, calls q ≠ some (.cancelLock x.i tenantId version)) :
    ∃ owner', LockSafe owner' (k.next hasGateway p reply s).2
      (Function.update calls p (some (k.next hasGateway p reply s).1)) := by
  cases k with
  | cancelFind i tenantId =>
      refine ⟨owner, ?_⟩
      simp only [LockCall.next]
      split
      · exact h.done hk rfl rfl
      · split
        · exact h.done hk rfl rfl
        · split
          · exact h.done hk rfl rfl
          · split
            · exact h.done hk rfl rfl
            · exact h.move hk rfl rfl (arrives_of_idle trivial rfl rfl rfl)
  | cancelUpdate i tenantId =>
      refine ⟨owner, ?_⟩
      simp only [LockCall.next]
      split
      · rename_i hc
        have hfree := h.free_of_cancellable hk rfl hc
        refine h.move hk rfl rfl
          ⟨trivial, fun j hj => ?_, (fun j hj => by cases hj), fun j hj => by cases hj⟩
        exact Option.some.inj hj ▸ hfree
      · exact h.done hk rfl rfl
  | cancelLock i tenantId version => exact ⟨owner, h.step_cancelLock hk hasGateway reply⟩
  | cancelReload i tenantId =>
      refine ⟨owner, ?_⟩
      simp only [LockCall.next]
      split
      · exact h.rollback arrives_done
      · have hwrites : Writes s p i .cancelled := h.holds p _ hk
        refine h.move hk rfl rfl
          ⟨hwrites, fun j hj => ?_, (fun j hj => by cases hj), fun j hj => by cases hj⟩
        exact h.free p _ j hk hj
  | cancelCommit i tenantId =>
      refine ⟨owner, ?_⟩
      simp only [LockCall.next]
      split
      · exact h.rollback arrives_done
      · exact h.commit_invoice hk rfl arrives_done
  | findInvoice request =>
      refine ⟨owner, ?_⟩
      simp only [LockCall.next]
      split
      · exact h.done hk rfl rfl
      · split
        · exact h.done hk rfl rfl
        · split
          · exact h.done hk rfl rfl
          · split
            · exact h.done hk rfl rfl
            · split
              · exact h.done hk rfl rfl
              · exact h.move hk rfl rfl (arrives_of_idle trivial rfl rfl rfl)
  | findAttempt x =>
      have hclaim : Arrives owner s s p (.claimSelect x) := arrives_of_idle trivial rfl rfl rfl
      obtain ⟨harrives, hI, hA⟩ := afterAttempt_arrives x
        (((s.attempts x.i).visible p).filter fun a => a.tenantId = x.request.tenantId) hclaim
        rfl rfl
      exact ⟨owner, h.move hk hI hA harrives⟩
  | claimSelect x =>
      refine ⟨owner, ?_⟩
      simp only [LockCall.next]
      split
      · exact h.move hk rfl rfl (arrives_of_idle trivial rfl rfl rfl)
      · exact h.move hk rfl rfl (arrives_of_idle trivial rfl rfl rfl)
  | claimLock x => exact ⟨owner, h.step_claimLock hk hasGateway reply⟩
  | insertAttempt x => exact ⟨owner, h.step_insertAttempt hk hasGateway reply⟩
  | readAttempt x =>
      have htakes : Takes s p x.i := h.holds p _ hk
      refine ⟨owner, ?_⟩
      simp only [LockCall.next]
      split
      · exact h.move hk rfl rfl (arrives_of_idle htakes rfl rfl rfl)
      · exact h.move hk rfl rfl (arrives_of_idle htakes rfl rfl rfl)
  | reclaimUpdate x =>
      have htakes : Takes s p x.i := h.holds p _ hk
      refine ⟨owner, ?_⟩
      simp only [LockCall.next]
      split
      · exact h.move hk rfl rfl (arrives_of_idle htakes rfl rfl rfl)
      · exact h.move hk rfl rfl (arrives_of_idle htakes rfl rfl rfl)
  | reclaimLock x => exact ⟨owner, h.step_reclaimLock hk hasGateway reply⟩
  | commitClaim x =>
      simp only [LockCall.next]
      cases hd : reply.delivery with
      | acknowledged =>
          exact ⟨_, h.commit_claim hk (hgap x rfl
            (by rw [hd]; exact fun hc => Delivery.noConfusion hc))
            (.inl rfl)⟩
      | failed => exact ⟨owner, h.rollback arrives_done⟩
      | unacknowledged =>
          exact ⟨_, h.commit_claim hk (hgap x rfl
            (by rw [hd]; exact fun hc => Delivery.noConfusion hc))
            (.inr rfl)⟩
  | commitLost x =>
      exact ⟨owner, h.commit_invoice hk rfl (arrives_of_idle trivial rfl rfl rfl)⟩
  | findInvoiceAgain x =>
      refine ⟨owner, ?_⟩
      simp only [LockCall.next]
      split
      · exact h.move hk rfl rfl (arrives_of_idle trivial rfl rfl rfl)
      · split
        · exact h.done hk rfl rfl
        · exact h.move hk rfl rfl (arrives_of_idle trivial rfl rfl rfl)
  | findAttemptAgain x =>
      have hdone : Arrives owner s s p .done := arrives_done
      obtain ⟨harrives, hI, hA⟩ := afterAttempt_arrives x
        (((s.attempts x.i).visible p).filter fun a => a.tenantId = x.request.tenantId) hdone
        rfl rfl
      exact ⟨owner, h.move hk hI hA harrives⟩
  | charge x =>
      refine ⟨owner, h.move hk rfl rfl ⟨trivial, (fun j hj => by cases hj), fun j hj => ?_,
        fun j hj => ?_⟩⟩
      · exact h.taken p _ j hk hj
      · exact h.owned p _ j hk hj
  | await x =>
      refine ⟨owner, ?_⟩
      simp only [LockCall.next]
      split
      · rw [← hk, Function.update_eq_self]
        exact h
      · refine h.move hk rfl rfl ⟨trivial, (fun j hj => by cases hj), fun j hj => ?_,
          fun j hj => ?_⟩
        · exact h.taken p _ j hk hj
        · exact h.owned p _ j hk hj
      · exact h.move hk rfl rfl (arrives_of_idle trivial rfl rfl rfl)
      · split
        · exact h.move hk rfl rfl (arrives_of_idle trivial rfl rfl rfl)
        · exact h.move hk rfl rfl (arrives_of_idle trivial rfl rfl rfl)
  | recordUpdate x outcome id =>
      refine ⟨owner, ?_⟩
      simp only [LockCall.next]
      split
      · cases outcome with
        | rejected =>
            refine h.move hk rfl rfl ⟨trivial, (fun j hj => by cases hj), fun j hj => ?_,
              fun j hj => ?_⟩
            · exact h.taken p _ j hk hj
            · exact h.owned p _ j hk hj
        | unknown => exact h.move hk rfl rfl (arrives_of_idle trivial rfl rfl rfl)
      · exact h.done hk rfl rfl
  | recordLock x outcome id => exact ⟨owner, h.step_recordLock hk hasGateway reply⟩
  | completeInvoice x id recovers =>
      refine ⟨owner, ?_⟩
      simp only [LockCall.next]
      split
      · exact h.move hk rfl rfl (arrives_of_idle trivial rfl rfl rfl)
      · exact h.notCompleted hk rfl rfl x id recovers
  | completeInvoiceLock x id recovers =>
      exact ⟨owner, h.step_completeInvoiceLock hk hasGateway reply⟩
  | completeAttempt x id recovers =>
      have hwrites : Writes s p x.i .pending := h.holds p _ hk
      refine ⟨owner, ?_⟩
      simp only [LockCall.next]
      split
      · exact h.move hk rfl rfl (arrives_of_idle hwrites rfl rfl rfl)
      · exact h.rollback_notCompleted x id recovers
  | completeAttemptLock x id recovers =>
      exact ⟨owner, h.step_completeAttemptLock hk hasGateway reply⟩
  | completeCommit x id recovers =>
      refine ⟨owner, ?_⟩
      simp only [LockCall.next]
      split
      · exact h.commit_complete hk arrives_done
      · exact h.rollback_notCompleted x id recovers
      · exact h.commit_complete hk arrives_notCompleted
  | done => exact ⟨owner, h.done hk rfl rfl⟩
  | stopped => exact ⟨owner, h.move hk rfl rfl (arrives_of_idle trivial rfl rfl rfl)⟩

theorem LockSafe.spawn (h : LockSafe owner s calls) (hp : calls p = none)
    (harrives : Arrives owner s s p k') :
    LockSafe owner s (Function.update calls p (some k')) := by
  refine h.step_same (fun _ => Iff.rfl) h.cancelled (fun i hi => ?_) (fun i hi => ?_)
    (fun _ _ _ _ => rfl) (fun _ _ _ _ => rfl) harrives
  · obtain ⟨k, hk, -⟩ := h.invoiceLocks i p hi
    rw [hp] at hk
    cases hk
  · obtain ⟨k, hk, -⟩ := h.attemptLocks i p hi
    rw [hp] at hk
    cases hk

/-! ## Whole runs -/

/-- The two tables, with no transaction open. -/
def BillingCells.stored (invoices : Id → Option Invoice)
    (attempts : Id → Option XenditPaymentRequestAttempt) : BillingCells :=
  ⟨fun i => .stored (invoices i), fun i => .stored (attempts i)⟩

/-- The invoice is CANCELLED while its attempt is IN_PROGRESS, UNKNOWN or COMPLETED. -/
def ChargedWhileCancelled (s : BillingCells) (i : Id) : Prop :=
  ∃ row attempt, (s.invoices i).committed = some row ∧ row.status = .cancelled ∧
    (s.attempts i).committed = some attempt ∧
    (attempt.state = .inProgress ∨ attempt.state = .unknown ∨ attempt.state = .completed)

/-- The event does not commit a claim on an invoice while a cancelling update of that
invoice has evaluated its condition and does not have the row yet. -/
def NoClaimInGap (w : World BillingCells LockCall) (e : LockEvent) : Prop :=
  ∀ p reply x, e = .step p reply → w.at_ p = some (.commitClaim x) → reply.delivery ≠ .failed →
    ∀ q tenantId version, w.at_ q ≠ some (.cancelLock x.i tenantId version)

theorem free_of_not_charged (h : ¬ ChargedWhileCancelled s i) {row : Invoice}
    (hrow : (s.invoices i).committed = some row) (hstatus : row.status = .cancelled) :
    Free s i := by
  intro attempt ha
  by_contra hne
  refine h ⟨row, attempt, hrow, hstatus, ha, ?_⟩
  cases hs : attempt.state with
  | inProgress => exact .inl rfl
  | rejected => exact absurd hs hne
  | unknown => exact .inr (.inl rfl)
  | completed => exact .inr (.inr rfl)

theorem exec_lockSafe {hasGateway : Bool} {w : World BillingCells LockCall} {e : LockEvent}
    (h : ∃ owner, LockSafe owner w.store w.at_) (hgap : NoClaimInGap w e) :
    ∃ owner, LockSafe owner ((cancellation hasGateway).exec w e).store
      ((cancellation hasGateway).exec w e).at_ := by
  obtain ⟨owner, h⟩ := h
  obtain ⟨p, r, -, hp, hs, ha⟩ | ⟨p, c, k, he, -, hp, hs, ha⟩ | ⟨o, -, -, -⟩ |
    ⟨p, k, -, hp, hs, ha⟩ | ⟨hs, ha⟩ := (cancellation hasGateway).exec_cases w e
  · rw [hs, ha]
    cases r with
    | cancel i tenantId =>
        exact ⟨owner, h.spawn hp (arrives_of_idle trivial rfl rfl rfl)⟩
    | pay request => exact ⟨owner, h.spawn hp (arrives_of_idle trivial rfl rfl rfl)⟩
  · rw [hs, ha]
    exact h.step hp hasGateway c fun x hx hd => hgap p c x he (hx ▸ hp) hd
  · exact nomatch o
  · rw [hs, ha]
    exact ⟨owner, h.rollback (arrives_of_idle trivial rfl rfl rfl)⟩
  · rw [hs, ha]
    exact ⟨owner, h⟩

theorem lockSafe_stored {invoices : Id → Option Invoice}
    {attempts : Id → Option XenditPaymentRequestAttempt}
    (hstart : ∀ i, ¬ ChargedWhileCancelled (.stored invoices attempts) i) :
    LockSafe (fun _ => none) (.stored invoices attempts) fun _ => none where
  cancelled := fun i row hrow hstatus => free_of_not_charged (hstart i) hrow hstatus
  invoiceLocks := fun i p hp => by
    obtain ⟨l, hl, -⟩ := hp
    cases hl
  attemptLocks := fun i p hp => by
    obtain ⟨l, hl, -⟩ := hp
    cases hl
  holds := fun p k hk => by cases hk
  free := fun p k i hk => by cases hk
  taken := fun p k i hk => by cases hk
  owned := fun p k i hk => by cases hk

/-- In a run in which no claim commits while a cancellation of the same invoice
stands between its condition and its row, no invoice is cancelled while its attempt
is under way, and no call is about to charge a cancelled invoice. -/
theorem cancelled_never_charged (hasGateway : Bool) (invoices : Id → Option Invoice)
    (attempts : Id → Option XenditPaymentRequestAttempt)
    (hstart : ∀ i, ¬ ChargedWhileCancelled (.stored invoices attempts) i)
    (es : List LockEvent)
    (hes : (cancellation hasGateway).Follows NoClaimInGap
      (World.idle (.stored invoices attempts)) es) :
    let w := (cancellation hasGateway).run (World.idle (.stored invoices attempts)) es
    (∀ i, ¬ ChargedWhileCancelled w.store i) ∧
      ∀ p x row, w.at_ p = some (.charge x) →
        (w.store.invoices x.i).committed = some row → row.status ≠ .cancelled := by
  intro w
  have hsafe : ∃ owner, LockSafe owner w.store w.at_ :=
    (cancellation hasGateway).follows_invariant
      (I := fun w => ∃ owner, LockSafe owner w.store w.at_)
      (fun w e hw hok => exec_lockSafe hw hok) es hes ⟨_, lockSafe_stored hstart⟩
  obtain ⟨owner, h⟩ := hsafe
  refine ⟨fun i hbad => ?_, fun p x row hp hrow hstatus => ?_⟩
  · obtain ⟨row, attempt, hrow, hstatus, ha, hstate⟩ := hbad
    have hrejected := h.cancelled i row hrow hstatus attempt ha
    rw [hrejected] at hstate
    rcases hstate with hc | hc | hc
    · cases hc
    · cases hc
    · cases hc
  · exact h.taken p _ x.i hp rfl (h.cancelled x.i row hrow hstatus)

/-- One pending invoice. -/
def onePending (i : Id) : Option Invoice :=
  if i = 1 then some (.opened 1 1 none "INV-202601-000001" 250000 "IDR") else none

/-- One pending invoice and no attempt. -/
def oneInvoice : BillingCells := .stored onePending fun _ => none

/-- A request to pay it, once it was read. -/
def oneClaim : ClaimContext := ⟨⟨1, 1, "QRIS"⟩, "INV-202601-000001"⟩

/-- A claim that commits, and a cancellation that starts afterwards. -/
def claimThenCancel : List LockEvent :=
  let ok : Reply := .database .acknowledged
  [.spawn 1 (.pay ⟨1, 1, "QRIS"⟩), .step 1 ok, .step 1 ok, .step 1 ok, .step 1 ok, .step 1 ok,
    .step 1 ok, .spawn 0 (.cancel 1 1), .step 0 ok, .step 0 ok]

theorem noClaimInGap_spawn (w : World BillingCells LockCall) (p : Nat) (r : LockRequest) :
    NoClaimInGap w (.spawn p r) := by
  intro p' reply x he
  cases he

theorem noClaimInGap_step {w : World BillingCells LockCall} {p : Nat} {k : LockCall}
    (hp : w.at_ p = some k) (hk : ∀ x, k ≠ .commitClaim x) (reply : Reply) :
    NoClaimInGap w (.step p reply) := by
  intro p' reply' x he hat
  cases he
  rw [hp] at hat
  cases hat
  exact absurd rfl (hk x)

theorem claimThenCancel_follows :
    (cancellation true).Follows NoClaimInGap
      (World.idle (.stored onePending fun _ => none)) claimThenCancel := by
  refine ⟨noClaimInGap_spawn _ _ _,
    noClaimInGap_step (k := .findInvoice ⟨1, 1, "QRIS"⟩) (by decide +kernel) nofun _,
    noClaimInGap_step (k := .findAttempt oneClaim) (by decide +kernel) nofun _,
    noClaimInGap_step (k := .claimSelect oneClaim) (by decide +kernel) nofun _,
    noClaimInGap_step (k := .claimLock oneClaim) (by decide +kernel) nofun _,
    noClaimInGap_step (k := .insertAttempt oneClaim) (by decide +kernel) nofun _,
    ?_, noClaimInGap_spawn _ _ _,
    noClaimInGap_step (k := .cancelFind 1 1) (by decide +kernel) nofun _,
    noClaimInGap_step (k := .cancelUpdate 1 1) (by decide +kernel) nofun _, trivial⟩
  intro p reply x he hp _ q tenantId version
  cases he
  by_cases hq : q = 1
  · rw [hq, hp]
    exact nofun
  · have hsteps := (cancellation true).steps_at_of_ne hq
      (List.replicate 5 (.database .acknowledged))
      ((cancellation true).exec (World.idle (.stored onePending fun _ => none))
        (.spawn 1 (.pay ⟨1, 1, "QRIS"⟩)))
    intro h
    replace h := hsteps.symm.trans h
    simp [World.at_, System.exec, World.idle, hq] at h

theorem cancelled_never_charged_example :
    (∀ i, ¬ ChargedWhileCancelled
      ((cancellation true).run (World.idle oneInvoice) claimThenCancel).store i) ∧
      ((cancellation true).run (World.idle oneInvoice) claimThenCancel).at_ 1 =
        some (.charge oneClaim) :=
  ⟨(cancelled_never_charged true onePending (fun _ => none)
    (fun _ ⟨_, _, _, _, ha, _⟩ => nomatch ha) claimThenCancel claimThenCancel_follows).1,
    by decide +kernel⟩

/-- A claim that has written its attempt, and a cancellation that started then. -/
def claimBeforeCancel : List LockEvent :=
  let ok : Reply := .database .acknowledged
  [.spawn 0 (.cancel 1 1), .spawn 1 (.pay ⟨1, 1, "QRIS"⟩),
    .step 1 ok, .step 1 ok, .step 1 ok, .step 1 ok, .step 1 ok,
    .step 0 ok, .step 0 ok]

/-- The claim commits, and the cancellation goes on: its update has waited for a row
that was locked and not changed. -/
theorem cancelled_while_charged :
    let ok : Reply := .database .acknowledged
    let w := (cancellation true).run (World.idle oneInvoice)
      (claimBeforeCancel ++ [.step 1 ok, .step 0 ok, .step 0 ok, .step 0 ok])
    ChargedWhileCancelled w.store 1 ∧ w.at_ 1 = some (.charge oneClaim) := by
  refine ⟨⟨{ Invoice.opened 1 1 none "INV-202601-000001" 250000 "IDR" with status := .cancelled },
    ⟨1, 1, .inProgress, none⟩, ?_, rfl, ?_, .inl rfl⟩, ?_⟩
  · decide +kernel
  · decide +kernel
  · decide +kernel

end Billing
end ERP
