import ERP.Billing.PaymentRequest

/-!
# No invoice is charged twice

The invariant behind the claim on an invoice.  At most one call stands between its
claim and the outcome it records, and while it does the attempt is in progress; a
charge made before that claim was rejected, and the rejection is on record.
-/

namespace ERP
namespace Billing

open Lib Lib.Tx

/-- The attempt of an invoice is in progress. -/
def InProgress (db : BillingDB) (i : Id) : Prop :=
  ∃ attempt, db.attempts.get i = some attempt ∧ attempt.state = .inProgress

/-- The attempt of an invoice is neither in progress nor to be taken up again. -/
def Resolved (db : BillingDB) (i : Id) : Prop :=
  ∃ attempt, db.attempts.get i = some attempt ∧ attempt.state ≠ .inProgress ∧
    attempt.state ≠ .rejected

/-- The attempt of an invoice is completed. -/
def Completed (db : BillingDB) (i : Id) : Prop :=
  ∃ attempt, db.attempts.get i = some attempt ∧ attempt.state = .completed

/-- The call's charge of the invoice was rejected, and that was persisted. -/
def Persisted (trace : List Observation) (q : Nat) (i : Id) : Prop :=
  .rejected q i ∈ trace ∧ .persisted q i ∈ trace

/-- The invoice whose claim a call has won and not yet given an outcome. -/
def PaymentCall.claims : PaymentCall → Option Id
  | .charge _ invoice => some invoice.id
  | .await _ invoice => some invoice.id
  | .record _ invoice _ _ _ => some invoice.id
  | .complete _ invoice _ _ => some invoice.id
  | _ => none

/-- The call is past its charge. -/
def PaymentCall.pastCharge : PaymentCall → Bool
  | .await _ _ => true
  | .record _ _ _ _ _ => true
  | .complete _ _ _ _ => true
  | .done _ => true
  | _ => false

/-- What holds of a call where it stands. -/
def CallOk (s : BillingState) (p : Nat) : PaymentCall → Prop
  | .recover _ invoice _ => Resolved s.db invoice.id
  | .charge _ invoice => InProgress s.db invoice.id ∧
      ∃ row, s.db.invoices.get invoice.id = some row ∧ row.providerPaymentRequestId = none ∧
        row.providerPaymentId = none
  | .await _ invoice => InProgress s.db invoice.id
  | .complete _ invoice _ _ => InProgress s.db invoice.id
  | .record _ invoice .rejected id _ =>
      id = none ∧ InProgress s.db invoice.id ∧ .rejected p invoice.id ∈ s.trace
  | .record _ invoice .unknown id _ =>
      InProgress s.db invoice.id ∨ (id ≠ none ∧ Completed s.db invoice.id)
  | _ => True

/-- The invariant of the store and the calls. -/
structure Safe (s : BillingState) (calls : Nat → Option PaymentCall) : Prop where
  created : ∀ i row, s.db.invoices.get i = some row → row.status = .pending →
    row.providerPaymentRequestId = none → row.providerPaymentId = none
  clean : ∀ i attempt, s.db.attempts.get i = some attempt →
    attempt.state = .inProgress ∨ attempt.state = .rejected →
    attempt.providerPaymentRequestId = none
  free : ∀ i q, .charged q i ∈ s.trace → ¬ InProgress s.db i → ¬ Resolved s.db i →
    Persisted s.trace q i
  call : ∀ p k, calls p = some k → CallOk s p k
  unique : ∀ p q k l i, calls p = some k → calls q = some l → k.claims = some i →
    l.claims = some i → InProgress s.db i → p = q
  past : ∀ q i, .charged q i ∈ s.trace → ∃ k, calls q = some k ∧ k.pastCharge = true
  others : ∀ p k i q, calls p = some k → k.claims = some i → InProgress s.db i →
    .charged q i ∈ s.trace → q ≠ p → Persisted s.trace q i

variable {s s' : BillingState} {calls : Nat → Option PaymentCall} {p : Nat}
  {k k' : PaymentCall} {db db' : BillingDB} {i j : Id}

theorem InProgress.not_resolved (h : InProgress db i) : ¬ Resolved db i := by
  rintro ⟨a, ha, hstate, -⟩
  obtain ⟨b, hb, hprogress⟩ := h
  rw [ha] at hb
  exact hstate (Option.some.inj hb ▸ hprogress)

theorem Completed.resolved (h : Completed db i) : Resolved db i := by
  obtain ⟨attempt, hget, hstate⟩ := h
  refine ⟨attempt, hget, ?_, ?_⟩
  · rw [hstate]
    exact fun hc => AttemptState.noConfusion hc
  · rw [hstate]
    exact fun hc => AttemptState.noConfusion hc

/-- The calls after one of them has moved on. -/
theorem update_cases {q : Nat} {l : PaymentCall}
    (h : Function.update calls p (some k') q = some l) :
    (q = p ∧ l = k') ∨ (q ≠ p ∧ calls q = some l) := by
  by_cases hq : q = p
  · rw [hq, Function.update_self] at h
    exact .inl ⟨hq, (Option.some.inj h).symm⟩
  · rw [Function.update_of_ne hq] at h
    exact .inr ⟨hq, h⟩

/-- A call moves on without writing anything. -/
theorem Safe.move (h : Safe s calls) (hk : calls p = some k) (hok : CallOk s p k')
    (hclaims : ∀ i, k'.claims = some i → k.claims = some i)
    (hpast : k.pastCharge = true → k'.pastCharge = true) :
    Safe s (Function.update calls p (some k')) where
  created := h.created
  clean := h.clean
  free := h.free
  call := by
    intro q l hl
    rcases update_cases hl with ⟨rfl, rfl⟩ | ⟨-, hl⟩
    · exact hok
    · exact h.call q l hl
  unique := by
    intro q r l m i hl hm hli hmi hi
    rcases update_cases hl with ⟨hqp, hlk⟩ | ⟨-, hl'⟩
    · rcases update_cases hm with ⟨hrp, -⟩ | ⟨-, hm'⟩
      · rw [hqp, hrp]
      · rw [hqp]
        exact h.unique p r k m i hk hm' (hclaims i (hlk ▸ hli)) hmi hi
    · rcases update_cases hm with ⟨hrp, hmk⟩ | ⟨-, hm'⟩
      · rw [hrp]
        exact h.unique q p l k i hl' hk hli (hclaims i (hmk ▸ hmi)) hi
      · exact h.unique q r l m i hl' hm' hli hmi hi
  past := by
    intro q i hq
    obtain ⟨l, hl, hpastl⟩ := h.past q i hq
    by_cases hqp : q = p
    · rw [hqp, hk] at hl
      refine ⟨k', by rw [hqp, Function.update_self], hpast ?_⟩
      rw [Option.some.inj hl]
      exact hpastl
    · exact ⟨l, by rw [Function.update_of_ne hqp, hl], hpastl⟩
  others := by
    intro q l i r hl hli hi hr hne
    rcases update_cases hl with ⟨rfl, rfl⟩ | ⟨-, hl⟩
    · exact h.others q k i r hk (hclaims i hli) hi hr hne
    · exact h.others q l i r hl hli hi hr hne

theorem Persisted.mono {trace : List Observation} {q : Nat} (h : Persisted trace q i)
    (o : Observation) : Persisted (trace ++ [o]) q i :=
  ⟨List.mem_append_left _ h.1, List.mem_append_left _ h.2⟩

theorem CallOk.observe (h : CallOk s p k) (o : Observation) : CallOk (s.observe o) p k := by
  cases k with
  | record request invoice outcome id answer =>
      cases outcome with
      | rejected => exact ⟨h.1, h.2.1, List.mem_append_left _ h.2.2⟩
      | unknown => exact h
  | _ => exact h

/-- Seeing something else than a charge takes nothing away. -/
theorem Safe.observe (h : Safe s calls) {o : Observation} (ho : ∀ q i, o ≠ .charged q i) :
    Safe (s.observe o) calls := by
  have hback (q : Nat) (i : Id) (hq : Observation.charged q i ∈ (s.observe o).trace) :
      Observation.charged q i ∈ s.trace := by
    rcases List.mem_append.mp hq with hq | hq
    · exact hq
    · rw [List.mem_singleton] at hq
      exact absurd hq.symm (ho q i)
  exact
    { created := h.created
      clean := h.clean
      free := fun i q hq hprogress hresolved =>
        (h.free i q (hback q i hq) hprogress hresolved).mono o
      call := fun q l hl => (h.call q l hl).observe o
      unique := h.unique
      past := fun q i hq => h.past q i (hback q i hq)
      others := fun q l i r hl hli hi hr hne =>
        (h.others q l i r hl hli hi (hback r i hr) hne).mono o }

/-- The claim that a call holds is in progress, unless the call is about to record
an id it got. -/
theorem Safe.inProgress (h : Safe s calls) (hk : calls p = some k) (hi : k.claims = some i) :
    InProgress s.db i ∨ Completed s.db i := by
  have hok := h.call p k hk
  cases k with
  | charge request invoice =>
      have hid : invoice.id = i := Option.some.inj hi
      exact .inl (hid ▸ hok.1)
  | await request invoice =>
      have hid : invoice.id = i := Option.some.inj hi
      exact .inl (hid ▸ hok)
  | complete request invoice id status =>
      have hid : invoice.id = i := Option.some.inj hi
      exact .inl (hid ▸ hok)
  | record request invoice outcome id answer =>
      have hid : invoice.id = i := Option.some.inj hi
      subst hid
      cases outcome with
      | rejected => exact .inl hok.2.1
      | unknown =>
          rcases hok with hok | hok
          · exact .inl hok
          · exact .inr hok.2
  | _ => cases hi

theorem SetsAttempt.inProgress_iff {attempt : XenditPaymentRequestAttempt}
    (h : SetsAttempt db db' i attempt) :
    InProgress db' j ↔ if j = i then attempt.state = .inProgress else InProgress db j := by
  unfold InProgress
  rw [h j]
  by_cases hj : j = i
  · rw [if_pos hj, if_pos hj]
    exact ⟨fun ⟨a, ha, hstate⟩ => Option.some.inj ha ▸ hstate, fun hstate => ⟨attempt, rfl, hstate⟩⟩
  · rw [if_neg hj, if_neg hj]

theorem SetsAttempt.resolved_iff {attempt : XenditPaymentRequestAttempt}
    (h : SetsAttempt db db' i attempt) :
    Resolved db' j ↔
      if j = i then attempt.state ≠ .inProgress ∧ attempt.state ≠ .rejected
      else Resolved db j := by
  unfold Resolved
  rw [h j]
  by_cases hj : j = i
  · rw [if_pos hj, if_pos hj]
    exact ⟨fun ⟨a, ha, hstate⟩ => Option.some.inj ha ▸ hstate, fun hstate => ⟨attempt, rfl, hstate⟩⟩
  · rw [if_neg hj, if_neg hj]

/-- A call that has nothing to do with invoice `i` does not see its attempt or its
row change. -/
theorem CallOk.frame {attempt : XenditPaymentRequestAttempt} (h : CallOk s p k)
    (hset : SetsAttempt s.db db' i attempt)
    (hrows : ∀ j, j ≠ i → db'.invoices.get j = s.db.invoices.get j)
    (hclaims : k.claims ≠ some i)
    (hresolved : Resolved s.db i → Resolved db' i) :
    CallOk { s with db := db' } p k := by
  have hprogress (j : Id) (hj : j ≠ i) (hp : InProgress s.db j) : InProgress db' j := by
    rw [hset.inProgress_iff, if_neg hj]
    exact hp
  have hcompleted (j : Id) (hj : j ≠ i) (hc : Completed s.db j) : Completed db' j := by
    obtain ⟨a, ha, hstate⟩ := hc
    exact ⟨a, by rw [hset j, if_neg hj, ha], hstate⟩
  have hres (j : Id) (hr : Resolved s.db j) : Resolved db' j := by
    by_cases hj : j = i
    · rw [hj] at hr ⊢
      exact hresolved hr
    · rw [hset.resolved_iff, if_neg hj]
      exact hr
  cases k with
  | recover request invoice id => exact hres _ h
  | charge request invoice =>
      have hj : invoice.id ≠ i := fun hj => hclaims (congrArg some hj)
      obtain ⟨hp, row, hrow, hids⟩ := h
      exact ⟨hprogress _ hj hp, row, (hrows _ hj).trans hrow, hids⟩
  | await request invoice => exact hprogress _ (fun hj => hclaims (congrArg some hj)) h
  | complete request invoice id status => exact hprogress _ (fun hj => hclaims (congrArg some hj)) h
  | record request invoice outcome id answer =>
      have hj : invoice.id ≠ i := fun hj => hclaims (congrArg some hj)
      cases outcome with
      | rejected => exact ⟨h.1, hprogress _ hj h.2.1, h.2.2⟩
      | unknown => exact h.imp (hprogress _ hj) fun hc => ⟨hc.1, hcompleted _ hj hc.2⟩
  | _ => trivial

/-- The charge itself.  Of the invoice only rejected charges are on record, and the
charging call is the only one that holds a claim on it. -/
theorem Safe.charge {request : PaymentRequest} {invoice : Invoice} (h : Safe s calls)
    (hk : calls p = some (.charge request invoice)) :
    Safe (s.observe (.charged p invoice.id))
      (Function.update calls p (some (.await request invoice))) := by
  have hmove : Safe s (Function.update calls p (some (.await request invoice))) := by
    refine h.move hk ?_ (fun i hi => hi) (fun hpast => Bool.noConfusion hpast)
    exact (h.call p _ hk).1
  have hprogress : InProgress s.db invoice.id := (h.call p _ hk).1
  have hself : Function.update calls p (some (PaymentCall.await request invoice)) p =
      some (.await request invoice) := Function.update_self _ _ _
  -- the one new charge is that of `p` on its invoice
  have hback {q : Nat} {i : Id} (hq : Observation.charged q i ∈
      (s.observe (.charged p invoice.id)).trace) :
      Observation.charged q i ∈ s.trace ∨ (q = p ∧ i = invoice.id) := by
    rcases List.mem_append.mp hq with hq | hq
    · exact .inl hq
    · rw [List.mem_singleton, Observation.charged.injEq] at hq
      exact .inr hq
  exact
    { created := hmove.created
      clean := hmove.clean
      free := by
        intro i q hq hnot hres
        rcases hback hq with hq | ⟨-, rfl⟩
        · exact (hmove.free i q hq hnot hres).mono _
        · exact absurd hprogress hnot
      call := fun q l hl => (hmove.call q l hl).observe _
      unique := hmove.unique
      past := by
        intro q i hq
        rcases hback hq with hq | ⟨rfl, -⟩
        · exact hmove.past q i hq
        · exact ⟨_, hself, rfl⟩
      others := by
        intro q l i r hl hli hi hr hne
        rcases hback hr with hr | ⟨hrp, hid⟩
        · exact (hmove.others q l i r hl hli hi hr hne).mono _
        · rw [hid] at hli hi
          have hq := hmove.unique q p l _ invoice.id hl hself hli rfl hi
          exact absurd (hrp.trans hq.symm) hne }

/-- Nobody holds a claim on an invoice whose attempt is free. -/
theorem Safe.no_claim (h : Safe s calls) (hp : ¬ InProgress s.db i) (hr : ¬ Resolved s.db i)
    (hk : calls p = some k) : k.claims ≠ some i := by
  intro hi
  rcases h.inProgress hk hi with hprogress | hcompleted
  · exact hp hprogress
  · exact hr hcompleted.resolved

/-- A claim that is won.  The caller goes on to charge, or dies without having
learned of it. -/
theorem Safe.claim {request : PaymentRequest} {invoice : Invoice}
    {attempt : XenditPaymentRequestAttempt} {row : Invoice} (h : Safe s calls)
    (hk : calls p = some (.claim request invoice))
    (hk' : k' = .charge request invoice ∨ k' = .done .databaseError)
    (hset : SetsAttempt s.db db' invoice.id attempt) (hstate : attempt.state = .inProgress)
    (hclean : attempt.providerPaymentRequestId = none)
    (hfree : ¬ InProgress s.db invoice.id ∧ ¬ Resolved s.db invoice.id)
    (hinvoices : db'.invoices = s.db.invoices)
    (hrow : s.db.invoices.get invoice.id = some row) (hpending : row.status = .pending)
    (hnone : row.providerPaymentRequestId = none) :
    Safe { s with db := db' } (Function.update calls p (some k')) := by
  have hprogress : InProgress db' invoice.id := by
    rw [hset.inProgress_iff, if_pos rfl]
    exact hstate
  have hothers {q : Nat} {l : PaymentCall} (hl : calls q = some l) :
      l.claims ≠ some invoice.id := h.no_claim hfree.1 hfree.2 hl
  have hclaims {i : Id} (hi : k'.claims = some i) : i = invoice.id := by
    rcases hk' with rfl | rfl
    · exact (Option.some.inj hi).symm
    · cases hi
  have hback {i : Id} (hi : InProgress db' i) (hne : i ≠ invoice.id) : InProgress s.db i := by
    rw [hset.inProgress_iff, if_neg hne] at hi
    exact hi
  exact
    { created := fun i r hr => h.created i r (hinvoices ▸ hr)
      clean := by
        intro i a ha hor
        have ha' := hset i
        rw [ha] at ha'
        by_cases hi : i = invoice.id
        · rw [if_pos hi] at ha'
          rw [Option.some.inj ha']
          exact hclean
        · rw [if_neg hi] at ha'
          exact h.clean i a ha'.symm hor
      free := by
        intro i q hq hnot hres
        have hi : i ≠ invoice.id := fun hi => hnot (hi ▸ hprogress)
        rw [hset.inProgress_iff, if_neg hi] at hnot
        rw [hset.resolved_iff, if_neg hi] at hres
        exact h.free i q hq hnot hres
      call := by
        intro q l hl
        rcases update_cases hl with ⟨-, rfl⟩ | ⟨-, hl⟩
        · rcases hk' with rfl | rfl
          · refine ⟨hprogress, row, ?_, hnone, h.created _ row hrow hpending hnone⟩
            show db'.invoices.get invoice.id = some row
            rw [hinvoices]
            exact hrow
          · trivial
        · refine (h.call q l hl).frame hset (fun j _ => by rw [hinvoices]) (hothers hl) ?_
          exact fun hres => absurd hres hfree.2
      unique := by
        intro q r l m i hl hm hli hmi hi
        rcases update_cases hl with ⟨hqp, hlk⟩ | ⟨hqp, hl'⟩
        · rcases update_cases hm with ⟨hrp, -⟩ | ⟨-, hm'⟩
          · rw [hqp, hrp]
          · have hid : i = invoice.id := hclaims (by rw [← hlk]; exact hli)
            exact absurd (hid ▸ hmi) (hothers hm')
        · rcases update_cases hm with ⟨-, hmk⟩ | ⟨-, hm'⟩
          · have hid : i = invoice.id := hclaims (by rw [← hmk]; exact hmi)
            exact absurd (hid ▸ hli) (hothers hl')
          · have hne : i ≠ invoice.id := fun hid => hothers hl' (hid ▸ hli)
            exact h.unique q r l m i hl' hm' hli hmi (hback hi hne)
      past := by
        intro q i hq
        obtain ⟨l, hl, hpast⟩ := h.past q i hq
        have hqp : q ≠ p := by
          intro hqp
          rw [hqp, hk] at hl
          rw [← Option.some.inj hl] at hpast
          exact Bool.noConfusion hpast
        exact ⟨l, by rw [Function.update_of_ne hqp, hl], hpast⟩
      others := by
        intro q l i r hl hli hi hr hne
        by_cases hid : i = invoice.id
        · exact h.free i r hr (hid ▸ hfree.1) (hid ▸ hfree.2)
        · rcases update_cases hl with ⟨-, hlk⟩ | ⟨-, hl'⟩
          · exact absurd (hclaims (by rw [← hlk]; exact hli)) hid
          · exact h.others q l i r hl' hli (hback hi hid) hr hne }

/-- An attempt that nobody but the writing call holds is given its outcome. -/
theorem Safe.outcome {attempt : XenditPaymentRequestAttempt} (h : Safe s calls)
    (hk : calls p = some k) (hset : SetsAttempt s.db db' i attempt)
    (hdone : attempt.state ≠ .inProgress)
    (hrejected : attempt.state = .rejected → attempt.providerPaymentRequestId = none ∧
      ∀ q, .charged q i ∈ s.trace → Persisted s.trace q i)
    (hrows : ∀ j, j ≠ i → db'.invoices.get j = s.db.invoices.get j)
    (hrow : ∀ row, db'.invoices.get i = some row → row.status = .pending →
      row.providerPaymentRequestId = none → row.providerPaymentId = none)
    (hothers : ∀ q l, q ≠ p → calls q = some l → l.claims ≠ some i)
    (hresolved : Resolved s.db i → Resolved db' i)
    (hok : CallOk { s with db := db' } p k')
    (hclaims : ∀ j, k'.claims = some j → k.claims = some j)
    (hpast : k.pastCharge = true → k'.pastCharge = true) :
    Safe { s with db := db' } (Function.update calls p (some k')) := by
  have hback {j : Id} (hj : InProgress db' j) : j ≠ i ∧ InProgress s.db j := by
    by_cases hji : j = i
    · rw [hset.inProgress_iff, if_pos hji] at hj
      exact absurd hj hdone
    · rw [hset.inProgress_iff, if_neg hji] at hj
      exact ⟨hji, hj⟩
  -- what the calls hold of other invoices is what they held before
  have hold {q : Nat} {l : PaymentCall} {j : Id}
      (hl : Function.update calls p (some k') q = some l) (hlj : l.claims = some j) :
      ∃ l', calls q = some l' ∧ l'.claims = some j := by
    rcases update_cases hl with ⟨rfl, hlk⟩ | ⟨-, hl'⟩
    · exact ⟨k, hk, hclaims j (by rw [← hlk]; exact hlj)⟩
    · exact ⟨l, hl', hlj⟩
  exact
    { created := by
        intro j r hr
        by_cases hj : j = i
        · exact hrow r (hj ▸ hr)
        · exact h.created j r ((hrows j hj) ▸ hr)
      clean := by
        intro j a ha hor
        have ha' := hset j
        rw [ha] at ha'
        by_cases hj : j = i
        · rw [if_pos hj] at ha'
          rw [Option.some.inj ha'] at hor ⊢
          exact (hrejected (hor.resolve_left hdone)).1
        · rw [if_neg hj] at ha'
          exact h.clean j a ha'.symm hor
      free := by
        intro j q hq hnot hres
        by_cases hj : j = i
        · rw [hset.resolved_iff, if_pos hj] at hres
          have hstate : attempt.state = .rejected := by
            by_contra hstate
            exact hres ⟨hdone, hstate⟩
          exact hj ▸ (hrejected hstate).2 q (hj ▸ hq)
        · rw [hset.inProgress_iff, if_neg hj] at hnot
          rw [hset.resolved_iff, if_neg hj] at hres
          exact h.free j q hq hnot hres
      call := by
        intro q l hl
        rcases update_cases hl with ⟨rfl, rfl⟩ | ⟨hqp, hl'⟩
        · exact hok
        · exact (h.call q l hl').frame hset hrows (hothers q l hqp hl') hresolved
      unique := by
        intro q r l m j hl hm hlj hmj hj
        obtain ⟨l', hl', hlj'⟩ := hold hl hlj
        obtain ⟨m', hm', hmj'⟩ := hold hm hmj
        exact h.unique q r l' m' j hl' hm' hlj' hmj' (hback hj).2
      past := by
        intro q j hq
        obtain ⟨l, hl, hpastl⟩ := h.past q j hq
        by_cases hqp : q = p
        · rw [hqp, hk] at hl
          refine ⟨k', by rw [hqp, Function.update_self], hpast ?_⟩
          rw [Option.some.inj hl]
          exact hpastl
        · exact ⟨l, by rw [Function.update_of_ne hqp, hl], hpastl⟩
      others := by
        intro q l j r hl hlj hj hr hne
        obtain ⟨l', hl', hlj'⟩ := hold hl hlj
        exact h.others q l' j r hl' hlj' (hback hj).2 hr hne }

/-! ## Actions -/

/-- A transaction beside the calls: attempts stay, no pending invoice gets a payment
id without a payment request, and an invoice with neither keeps neither. -/
structure Calm (db db' : BillingDB) : Prop where
  attempts : db'.attempts = db.attempts
  rows : ∀ i row', db'.invoices.get i = some row' →
    db.invoices.get i = some row' ∨ row'.status ≠ .pending ∨ row'.providerPaymentId = none
  unlinked : ∀ i row, db.invoices.get i = some row → row.providerPaymentRequestId = none →
    row.providerPaymentId = none →
    ∃ row', db'.invoices.get i = some row' ∧ row'.providerPaymentRequestId = none ∧
      row'.providerPaymentId = none

theorem Keeps.calm (h : Keeps db db') : Calm db db' where
  attempts := h.attempts
  rows := fun _ _ hr => .inl (h.invoices ▸ hr)
  unlinked := fun _ row hr hreq hpay => ⟨row, h.invoices ▸ hr, hreq, hpay⟩

/-- Leaving PENDING is calm when an invoice without provider ids gets none. -/
theorem Leaves.calm {invoice row : Invoice} (h : Leaves db db' invoice row)
    (hids : invoice.providerPaymentRequestId = none → invoice.providerPaymentId = none →
      row.providerPaymentRequestId = none ∧ row.providerPaymentId = none) : Calm db db' where
  attempts := h.attempts
  rows := by
    intro i row' hr
    rw [h.invoices] at hr
    by_cases hi : i = invoice.id
    · rw [if_pos hi] at hr
      rw [← Option.some.inj hr]
      exact .inr (.inl h.final)
    · rw [if_neg hi] at hr
      exact .inl hr
  unlinked := by
    intro i r hr hreq hpay
    by_cases hi : i = invoice.id
    · have hsame : invoice = r := by
        have hfound := h.found
        rw [← hi, hr] at hfound
        exact (Option.some.inj hfound).symm
      refine ⟨row, by rw [h.invoices, if_pos hi], ?_⟩
      rw [hsame] at hids
      exact hids hreq hpay
    · exact ⟨r, by rw [h.invoices, if_neg hi, hr], hreq, hpay⟩

theorem Calm.refl (db : BillingDB) : Calm db db := (Keeps.refl db).calm

theorem insertInvoice_calm (db : BillingDB) {invoice : Invoice}
    (hpay : invoice.providerPaymentId = none) : Calm db (db.insertInvoice invoice) := by
  unfold BillingDB.insertInvoice
  split
  · exact Calm.refl db
  · cases hget : db.invoices.get invoice.id with
    | some old =>
        rw [Rows.get_insert_of_some hget]
        exact Calm.refl db
    | none =>
        have hinsert := Rows.get_insert_of_none hget
        refine ⟨rfl, fun i row' hr => ?_, fun i row hr hreq hrow => ⟨row, ?_, hreq, hrow⟩⟩
        · have hr' := (hinsert i).symm.trans hr
          by_cases hi : invoice.id = i
          · rw [if_pos hi] at hr'
            rw [← Option.some.inj hr']
            exact .inr (.inr hpay)
          · rw [if_neg hi] at hr'
            exact .inl hr'
        · have hi : invoice.id ≠ i := by
            intro hi
            rw [← hi, hget] at hr
            cases hr
          exact (hinsert i).trans ((if_neg hi).trans hr)

/-- What a transaction that may fail establishes of the store it leaves. -/
theorem commit_calm {α : Type} {m : BillingTx α} {E : BillingFailure → Prop}
    (h : Post m db (fun _ db' => Calm db db') E) : Calm db (commit m db) :=
  commit_of_post h (Calm.refl db)

theorem act_calm (action : BillingAction) (db : BillingDB) : Calm db (action.act db) := by
  cases action with
  | createInvoice id tenantId subscriptionId invoiceNumber amountCents currency =>
      exact insertInvoice_calm db rfl
  | webhook key input =>
      refine commit_calm ((webhook_settles db key input).mono (fun _ db' h => ?_) fun _ h => h)
      rcases h with hkeep | ⟨invoice, row, hs, -, hlinked⟩
      · exact hkeep.calm
      · refine hs.toLeaves.calm fun hreq hpay => ?_
        rcases hlinked with hne | hne
        · exact absurd hreq hne
        · exact absurd hpay hne
  | settlePaid id tenantId =>
      refine commit_calm ((settlePaidInvoice_settles db id tenantId).mono (fun _ db' h => ?_)
        fun _ h => h)
      rcases h with hkeep | ⟨invoice, hs⟩
      · exact hkeep.calm
      · exact hs.toLeaves.calm fun hreq hpay => ⟨hreq, hpay⟩
  | cancel id tenantId =>
      refine commit_calm ((cancelPendingInvoice_settles db id tenantId).mono (fun _ db' h => ?_)
        fun _ h => h)
      rcases h with hkeep | ⟨invoice, hs⟩
      · exact hkeep.calm
      · exact hs.toLeaves.calm fun hreq hpay => ⟨hreq, hpay⟩
  | fail id tenantId =>
      refine commit_calm ((failPendingInvoice_post db id tenantId).mono (fun _ db' h => ?_)
        fun _ h => h)
      rcases h with ⟨-, rfl⟩ | ⟨invoice, -, hget, hsat, rfl⟩
      · exact Calm.refl _
      · have hid : invoice.id = id := (isPending_iff.mp hsat).1
        have hp (r : Invoice) (hr : isPending id tenantId r = true) :
            r.id = invoice.id ∧ r.status = .pending :=
          ⟨(isPending_iff.mp hr).1.trans hid.symm, (isPending_iff.mp hr).2.2.2⟩
        have hleaves := leaves_updateInvoices (f := fun row => { row with status := .failed })
          (fun _ => rfl) (hid ▸ hget) hp hsat (fun h => InvoiceStatus.noConfusion h)
        exact hleaves.calm fun hreq hpay => ⟨hreq, hpay⟩

/-- An action keeps the invariant. -/
theorem Safe.calm (h : Safe s calls) (hcalm : Calm s.db db') : Safe { s with db := db' } calls := by
  have hprogress (j : Id) : InProgress db' j ↔ InProgress s.db j := by
    unfold InProgress
    rw [hcalm.attempts]
  have hresolved (j : Id) : Resolved db' j ↔ Resolved s.db j := by
    unfold Resolved
    rw [hcalm.attempts]
  have hcompleted (j : Id) : Completed db' j ↔ Completed s.db j := by
    unfold Completed
    rw [hcalm.attempts]
  exact
    { created := by
        intro i row hr hpending hreq
        rcases hcalm.rows i row hr with hr' | hne | hpay
        · exact h.created i row hr' hpending hreq
        · exact absurd hpending hne
        · exact hpay
      clean := fun i a ha => h.clean i a (hcalm.attempts ▸ ha)
      free := fun i q hq hnot hres =>
        h.free i q hq (fun hp => hnot ((hprogress i).mpr hp)) fun hr => hres ((hresolved i).mpr hr)
      call := by
        intro q l hl
        have hok := h.call q l hl
        cases l with
        | recover request invoice id => exact (hresolved _).mpr hok
        | charge request invoice =>
            obtain ⟨hp, row, hrow, hreq, hpay⟩ := hok
            exact ⟨(hprogress _).mpr hp, hcalm.unlinked _ row hrow hreq hpay⟩
        | await request invoice => exact (hprogress _).mpr hok
        | complete request invoice id status => exact (hprogress _).mpr hok
        | record request invoice outcome id answer =>
            cases outcome with
            | rejected => exact ⟨hok.1, (hprogress _).mpr hok.2.1, hok.2.2⟩
            | unknown =>
                exact hok.imp (hprogress _).mpr fun hc => ⟨hc.1, (hcompleted _).mpr hc.2⟩
        | _ => trivial
      unique := fun q r l m i hl hm hli hmi hi =>
        h.unique q r l m i hl hm hli hmi ((hprogress i).mp hi)
      past := h.past
      others := fun q l i r hl hli hi hr hne =>
        h.others q l i r hl hli ((hprogress i).mp hi) hr hne }

/-! ## Steps -/

/-- A transaction that was sent commits with its result, and the caller learns that
result or nothing; or it leaves the database alone. -/
theorem send_cases {α : Type} (m : BillingTx α) (delivery : Delivery) (db : BillingDB) :
    (∃ a db', m db = .ok (a, db') ∧
      (send m delivery db = (db', some (.ok a)) ∨ send m delivery db = (db', none))) ∨
    (∃ result, send m delivery db = (db, result) ∧ ∀ a, result ≠ some (.ok a)) := by
  unfold send
  cases hm : m db with
  | error e =>
      cases delivery with
      | acknowledged => exact .inr ⟨_, rfl, fun a h => by cases h⟩
      | failed => exact .inr ⟨_, rfl, fun a h => by cases h⟩
      | unacknowledged => exact .inr ⟨_, rfl, fun a h => by cases h⟩
  | ok result =>
      obtain ⟨a, db'⟩ := result
      cases delivery with
      | acknowledged => exact .inl ⟨a, db', rfl, .inl rfl⟩
      | failed => exact .inr ⟨_, rfl, fun a h => by cases h⟩
      | unacknowledged => exact .inl ⟨a, db', rfl, .inr rfl⟩

theorem truthy_ne_none {text : Option String} (h : truthy text = true) : text ≠ none := by
  rintro rfl
  cases h

/-- An attempt that retains a payment request id is resolved. -/
theorem Safe.resolved_of_retained (h : Safe s calls) {tenantId : Id}
    {attempt : XenditPaymentRequestAttempt} (hfind : s.db.attemptFor i tenantId = some attempt)
    (hid : truthy attempt.providerPaymentRequestId = true) : Resolved s.db i := by
  have hsat := Rows.sat_of_findFirst hfind
  rw [decide_eq_true_iff] at hsat
  have hget := Rows.get_of_mem (Rows.mem_of_findFirst hfind)
  rw [hsat.1] at hget
  have hnone := h.clean i attempt hget
  refine ⟨attempt, hget, fun hp => ?_, fun hr => ?_⟩
  · exact truthy_ne_none hid (hnone (.inl hp))
  · exact truthy_ne_none hid (hnone (.inr hr))

variable {hasGateway : Bool} {reply : Reply} {request : PaymentRequest} {invoice : Invoice}

/-- The calls after a step of call `p`. -/
def stepCalls (hasGateway : Bool) (p : Nat) (reply : Reply) (k : PaymentCall) (s : BillingState)
    (calls : Nat → Option PaymentCall) : Nat → Option PaymentCall :=
  Function.update calls p (some (k.next hasGateway p reply s).1)

theorem Safe.step_claim (h : Safe s calls) (hk : calls p = some (.claim request invoice)) :
    Safe ((PaymentCall.claim request invoice).next hasGateway p reply s).2
      (stepCalls hasGateway p reply (.claim request invoice) s calls) := by
  unfold stepCalls
  simp only [PaymentCall.next]
  rcases send_cases (claimXenditPaymentRequest invoice.id request.tenantId) reply.delivery s.db
    with ⟨result, db', hm, hsend⟩ | ⟨result, hsend, hnot⟩
  · rcases (claimXenditPaymentRequest_post s.db invoice.id request.tenantId).of_ok hm with
      ⟨hlost, rfl⟩ | ⟨hwon, hinvoices, ⟨row, hrow, hpending, hnone⟩, attempt, hstate, hset, hold⟩
    · -- nothing was written
      rcases hsend with hsend | hsend
      · rw [hsend]
        simp only [hlost]
        exact h.move hk trivial (fun i hi => by cases hi) fun hp => Bool.noConfusion hp
      · rw [hsend]
        exact h.move hk trivial (fun i hi => by cases hi) fun hp => Bool.noConfusion hp
    · have hfree : ¬ InProgress s.db invoice.id ∧ ¬ Resolved s.db invoice.id := by
        rcases hold with ⟨hnew, -⟩ | ⟨old, hget, hrejected, -⟩
        · refine ⟨?_, ?_⟩
          · rintro ⟨a, ha, -⟩
            rw [hnew] at ha
            cases ha
          · rintro ⟨a, ha, -⟩
            rw [hnew] at ha
            cases ha
        · refine ⟨?_, ?_⟩
          · rintro ⟨a, ha, hp⟩
            rw [hget] at ha
            rw [← Option.some.inj ha, hrejected] at hp
            cases hp
          · rintro ⟨a, ha, -, hr⟩
            rw [hget] at ha
            exact hr (Option.some.inj ha ▸ hrejected)
      have hclean : attempt.providerPaymentRequestId = none := by
        rcases hold with ⟨-, hid⟩ | ⟨old, hget, hrejected, hid⟩
        · exact hid
        · rw [hid]
          exact h.clean _ old hget (.inr hrejected)
      rcases hsend with hsend | hsend
      · rw [hsend]
        simp only [hwon, if_true]
        exact h.claim hk (.inl rfl) hset hstate hclean hfree hinvoices hrow hpending hnone
      · rw [hsend]
        exact h.claim hk (.inr rfl) hset hstate hclean hfree hinvoices hrow hpending hnone
  · rw [hsend]
    have hmove : Safe s (Function.update calls p (some (.done .databaseError))) :=
      h.move hk trivial (fun i hi => by cases hi) fun hp => Bool.noConfusion hp
    cases result with
    | none => exact hmove
    | some r =>
        cases r with
        | error e => exact hmove
        | ok a => exact absurd rfl (hnot a)

/-- Nobody else holds the claim a call holds. -/
theorem Safe.alone (h : Safe s calls) (hk : calls p = some k) (hi : k.claims = some i)
    (hp : InProgress s.db i) : ∀ q l, q ≠ p → calls q = some l → l.claims ≠ some i :=
  fun q l hne hl hli => hne (h.unique q p l k i hl hk hli hi hp)

theorem Safe.step_record {outcome : Outcome} {id : Option String} {answer : PaymentAnswer}
    (h : Safe s calls) (hk : calls p = some (.record request invoice outcome id answer)) :
    Safe ((PaymentCall.record request invoice outcome id answer).next hasGateway p reply s).2
      (stepCalls hasGateway p reply (.record request invoice outcome id answer) s calls) := by
  have hmove : Safe s (Function.update calls p (some (.done answer))) :=
    h.move hk trivial (fun i hi => by cases hi) fun _ => rfl
  unfold stepCalls
  simp only [PaymentCall.next]
  split
  · exact hmove
  · exact hmove
  rename_i delivery result count db' hm _
  rcases (recordXenditPaymentRequestOutcome_post s.db _ _ outcome id).of_ok hm with
    ⟨hcount, rfl⟩ | ⟨hcount, hinvoices, old, attempt, hget, hprogress, hstate, hid, hset⟩
  · rw [if_neg (fun hand => hcount hand.2)]
    exact hmove
  have hp : InProgress s.db invoice.id := ⟨old, hget, hprogress⟩
  have hok := h.call p _ hk
  have hrow (row : Invoice) (hr : db'.invoices.get invoice.id = some row) :=
    h.created invoice.id row (hinvoices ▸ hr)
  have hrows (j : Id) (_ : j ≠ invoice.id) : db'.invoices.get j = s.db.invoices.get j := by
    rw [hinvoices]
  have hdone : attempt.state ≠ .inProgress := by
    rw [hstate]
    cases outcome with
    | rejected => exact fun hc => AttemptState.noConfusion hc
    | unknown => exact fun hc => AttemptState.noConfusion hc
  cases outcome with
  | rejected =>
      rw [if_pos ⟨rfl, hcount⟩]
      -- the rejection of this call's charge is on record now, so all of them are
      have hseen : Safe (s.observe (.persisted p invoice.id)) calls :=
        h.observe fun q i hc => Observation.noConfusion hc
      refine hseen.outcome (s := s.observe (.persisted p invoice.id)) hk hset hdone
        (fun _ => ⟨?_, fun q hq => ?_⟩) hrows hrow (h.alone hk rfl hp)
        (fun hres => absurd hres hp.not_resolved) trivial (fun i hi => by cases hi) fun _ => rfl
      · rw [hid hok.1]
        exact h.clean _ old hget (.inl hprogress)
      · by_cases hqp : q = p
        · rw [hqp]
          exact ⟨List.mem_append_left _ hok.2.2,
            List.mem_append_right _ (List.mem_singleton.mpr rfl)⟩
        · exact hseen.others p _ invoice.id q hk rfl hp hq hqp
  | unknown =>
      rw [if_neg (fun hand => Outcome.noConfusion hand.1)]
      refine h.outcome hk hset hdone (fun hr => ?_) hrows hrow (h.alone hk rfl hp)
        (fun hres => absurd hres hp.not_resolved) trivial (fun i hi => by cases hi) fun _ => rfl
      rw [hstate] at hr
      cases hr

/-- A completed request: the attempt has its outcome, and the invoice carries the
payment request. -/
theorem Safe.completed {referenceId id : String} {tenantId : Id} (h : Safe s calls)
    (hk : calls p = some k)
    (hm : completeXenditPaymentRequest i tenantId referenceId id s.db = .ok ((), db'))
    (hothers : ∀ q l, q ≠ p → calls q = some l → l.claims ≠ some i)
    (hok : Completed db' i → CallOk { s with db := db' } p k')
    (hclaims : ∀ j, k'.claims = some j → k.claims = some j)
    (hpast : k.pastCharge = true → k'.pastCharge = true) :
    Safe { s with db := db' } (Function.update calls p (some k')) := by
  obtain ⟨row, row', old, attempt, -, hreq, hrows, -, -, hstate, hset⟩ :=
    (completeXenditPaymentRequest_post s.db i tenantId referenceId id).of_ok hm
  have hcompleted : Completed db' i := ⟨attempt, by rw [hset i, if_pos rfl], hstate⟩
  refine h.outcome hk hset ?_ (fun hr => ?_) (fun j hj => by rw [hrows, if_neg hj])
    (fun r hr _ hnone => ?_) hothers (fun _ => hcompleted.resolved) (hok hcompleted) hclaims
    hpast
  · rw [hstate]
    exact fun hc => AttemptState.noConfusion hc
  · rw [hstate] at hr
    cases hr
  · rw [hrows, if_pos rfl] at hr
    rw [← Option.some.inj hr, hreq] at hnone
    cases hnone

theorem Safe.step_complete {id : String} {status : PaymentStatusText} (h : Safe s calls)
    (hk : calls p = some (.complete request invoice id status)) :
    Safe ((PaymentCall.complete request invoice id status).next hasGateway p reply s).2
      (stepCalls hasGateway p reply (.complete request invoice id status) s calls) := by
  have hp : InProgress s.db invoice.id := h.call p _ hk
  unfold stepCalls
  simp only [PaymentCall.next]
  rcases send_cases (completeXenditPaymentRequest invoice.id request.tenantId
    invoice.invoiceNumber id) reply.delivery s.db with
    ⟨⟨⟩, db', hm, hsend⟩ | ⟨result, hsend, hnot⟩
  · rcases hsend with hsend | hsend
    · rw [hsend]
      exact h.completed hk hm (h.alone hk rfl hp) (fun _ => trivial) (fun j hj => by cases hj)
        fun _ => rfl
    · rw [hsend]
      refine h.completed hk hm (h.alone hk rfl hp) (fun hres => ?_) (fun j hj => hj) fun _ => rfl
      exact .inr ⟨Option.some_ne_none id, hres⟩
  · rw [hsend]
    have hmove : Safe s (Function.update calls p
        (some (.record request invoice .unknown (some id) .correlationFailed))) :=
      h.move hk (.inl hp) (fun i hi => hi) fun _ => rfl
    cases result with
    | none => exact hmove
    | some r =>
        cases r with
        | error e => exact hmove
        | ok a => exact absurd rfl (hnot a)

theorem Safe.step_recover {id : String} (h : Safe s calls)
    (hk : calls p = some (.recover request invoice id)) :
    Safe ((PaymentCall.recover request invoice id).next hasGateway p reply s).2
      (stepCalls hasGateway p reply (.recover request invoice id) s calls) := by
  have hres : Resolved s.db invoice.id := h.call p _ hk
  -- the attempt was unknown, so no call holds a claim on the invoice
  have hothers {db' : BillingDB} (hm : completeXenditPaymentRequest invoice.id request.tenantId
      invoice.invoiceNumber id s.db = .ok ((), db')) (q : Nat) (l : PaymentCall) (_ : q ≠ p)
      (hl : calls q = some l) : l.claims ≠ some invoice.id := by
    intro hli
    obtain ⟨row, row', old, attempt, -, -, -, hget, hold, -, -⟩ :=
      (completeXenditPaymentRequest_post _ _ _ _ _).of_ok hm
    rcases h.inProgress hl hli with hprogress | ⟨a, ha, hcompleted⟩
    · exact hprogress.not_resolved hres
    · rw [hget] at ha
      rw [← Option.some.inj ha] at hcompleted
      rcases hold with hold | hold
      · rw [hold] at hcompleted
        cases hcompleted
      · rw [hold] at hcompleted
        cases hcompleted
  have hmove (a : PaymentAnswer) : Safe s (Function.update calls p (some (.done a))) :=
    h.move hk trivial (fun i hi => by cases hi) fun _ => rfl
  unfold stepCalls
  simp only [PaymentCall.next]
  rcases send_cases (completeXenditPaymentRequest invoice.id request.tenantId
    invoice.invoiceNumber id) reply.delivery s.db with
    ⟨⟨⟩, db', hm, hsend⟩ | ⟨result, hsend, hnot⟩
  · rcases hsend with hsend | hsend
    · rw [hsend]
      exact h.completed hk hm (hothers hm) (fun _ => trivial) (fun j hj => by cases hj)
        fun _ => rfl
    · rw [hsend]
      exact h.completed hk hm (hothers hm) (fun _ => trivial) (fun j hj => by cases hj)
        fun _ => rfl
  · rw [hsend]
    cases result with
    | none => exact hmove _
    | some r =>
        cases r with
        | error e => exact hmove _
        | ok a => exact absurd rfl (hnot a)

/-- A step keeps the invariant. -/
theorem Safe.step (h : Safe s calls) (hk : calls p = some k) :
    Safe (k.next hasGateway p reply s).2 (stepCalls hasGateway p reply k s calls) := by
  -- the steps that write nothing and hold no claim afterwards
  have hmove (k' : PaymentCall) (hok : CallOk s p k') (hclaims : k'.claims = none)
      (hpast : k.pastCharge = true → k'.pastCharge = true) :
      Safe s (Function.update calls p (some k')) :=
    h.move hk hok (fun i hi => by rw [hclaims] at hi; cases hi) hpast
  cases k with
  | findInvoice request =>
      have hgo (k' : PaymentCall) (hok : CallOk s p k') (hclaims : k'.claims = none) :=
        hmove k' hok hclaims fun hp => Bool.noConfusion hp
      unfold stepCalls
      simp only [PaymentCall.next]
      split
      · exact hgo _ trivial rfl
      · split
        · exact hgo _ trivial rfl
        · split
          · exact hgo _ trivial rfl
          · split
            · exact hgo _ trivial rfl
            · exact hgo _ trivial rfl
  | findAttempt request invoice =>
      have hgo (k' : PaymentCall) (hok : CallOk s p k') (hclaims : k'.claims = none) :=
        hmove k' hok hclaims fun hp => Bool.noConfusion hp
      unfold stepCalls
      simp only [PaymentCall.next]
      split
      · exact hgo _ trivial rfl
      · rename_i attempt hfind
        split
        · exact hgo _ (h.resolved_of_retained hfind ‹_›) rfl
        · split
          · exact hgo _ trivial rfl
          · exact hgo _ trivial rfl
  | recover request invoice id => exact h.step_recover hk
  | claim request invoice => exact h.step_claim hk
  | findInvoiceAgain request invoice =>
      have hgo (k' : PaymentCall) (hok : CallOk s p k') (hclaims : k'.claims = none) :=
        hmove k' hok hclaims fun hp => Bool.noConfusion hp
      unfold stepCalls
      simp only [PaymentCall.next]
      split
      · exact hgo _ trivial rfl
      · split
        · exact hgo _ trivial rfl
        · exact hgo _ trivial rfl
  | findAttemptAgain request invoice =>
      have hgo (k' : PaymentCall) (hok : CallOk s p k') (hclaims : k'.claims = none) :=
        hmove k' hok hclaims fun hp => Bool.noConfusion hp
      unfold stepCalls
      simp only [PaymentCall.next]
      split
      · exact hgo _ trivial rfl
      · rename_i attempt hfind
        split
        · exact hgo _ (h.resolved_of_retained hfind ‹_›) rfl
        · exact hgo _ trivial rfl
  | charge request invoice => exact h.charge hk
  | await request invoice =>
      have hp : InProgress s.db invoice.id := h.call p _ hk
      unfold stepCalls
      simp only [PaymentCall.next]
      split
      · exact h.move hk hp (fun i hi => hi) fun _ => rfl
      · have hseen : Safe (s.observe (.rejected p invoice.id)) calls :=
          h.observe fun q i hc => Observation.noConfusion hc
        refine hseen.move hk ⟨rfl, hp, ?_⟩ (fun i hi => hi) fun _ => rfl
        exact List.mem_append_right _ (List.mem_singleton.mpr rfl)
      · exact h.move hk (.inl hp) (fun i hi => hi) fun _ => rfl
      · split
        · exact h.move hk hp (fun i hi => hi) fun _ => rfl
        · exact h.move hk (.inl hp) (fun i hi => hi) fun _ => rfl
  | record request invoice outcome id answer => exact h.step_record hk
  | complete request invoice id status => exact h.step_complete hk
  | done answer => exact hmove _ trivial rfl fun _ => rfl

/-- So does a call that begins. -/
theorem Safe.spawn (h : Safe s calls) (hp : calls p = none) (request : PaymentRequest) :
    Safe s (Function.update calls p (some (.findInvoice request))) where
  created := h.created
  clean := h.clean
  free := h.free
  call := by
    intro q l hl
    rcases update_cases hl with ⟨-, rfl⟩ | ⟨-, hl'⟩
    · trivial
    · exact h.call q l hl'
  unique := by
    intro q r l m i hl hm hli hmi hi
    rcases update_cases hl with ⟨-, rfl⟩ | ⟨-, hl'⟩
    · cases hli
    · rcases update_cases hm with ⟨-, rfl⟩ | ⟨-, hm'⟩
      · cases hmi
      · exact h.unique q r l m i hl' hm' hli hmi hi
  past := by
    intro q i hq
    obtain ⟨l, hl, hpast⟩ := h.past q i hq
    have hqp : q ≠ p := by
      rintro rfl
      rw [hp] at hl
      cases hl
    exact ⟨l, by rw [Function.update_of_ne hqp, hl], hpast⟩
  others := by
    intro q l i r hl hli hi hr hne
    rcases update_cases hl with ⟨-, rfl⟩ | ⟨-, hl'⟩
    · cases hli
    · exact h.others q l i r hl' hli hi hr hne

/-- What a step adds to the trace: a charge is added by a call that stands before
its charge, and by no other. -/
theorem next_trace (hasGateway : Bool) (p : Nat) (reply : Reply) (k : PaymentCall)
    (s : BillingState) :
    (k.next hasGateway p reply s).2.trace = s.trace ∨
    (∃ o, (∀ q i, o ≠ .charged q i) ∧ (k.next hasGateway p reply s).2.trace = s.trace ++ [o]) ∨
    (∃ request invoice, k = .charge request invoice ∧
      (k.next hasGateway p reply s).2.trace = s.trace ++ [.charged p invoice.id]) := by
  cases k with
  | charge request invoice => exact .inr (.inr ⟨request, invoice, rfl, rfl⟩)
  | await request invoice =>
      simp only [PaymentCall.next]
      split
      · exact .inl rfl
      · exact .inr (.inl ⟨_, fun q i hc => Observation.noConfusion hc, rfl⟩)
      · exact .inl rfl
      · split
        · exact .inl rfl
        · exact .inl rfl
  | record request invoice outcome id answer =>
      simp only [PaymentCall.next]
      split
      · exact .inl rfl
      · exact .inl rfl
      · split
        · exact .inr (.inl ⟨_, fun q i hc => Observation.noConfusion hc, rfl⟩)
        · exact .inl rfl
  | _ =>
      refine .inl ?_
      simp only [PaymentCall.next]
      repeat' split
      all_goals rfl

/-! ## Whole runs -/

/-- The billing tables before the first invoice. -/
def BillingDB.empty : BillingDB where
  invoices := ⟨[], List.nodup_nil⟩
  attempts := ⟨[], List.nodup_nil⟩
  receipts := []
  subscriptions := ⟨[], List.nodup_nil⟩
  plans := []
  outbox := []

theorem safe_empty (db : BillingDB) (hinvoices : db.invoices.toList = [])
    (hattempts : db.attempts.toList = []) : Safe ⟨db, []⟩ fun _ => none := by
  have hnone (i : Id) : db.attempts.get i = none := by
    show db.attempts.toList.find? _ = none
    rw [hattempts]
    rfl
  exact
    { created := by
        intro i row hr
        have hmem := Rows.mem_of_get hr
        rw [hinvoices] at hmem
        cases hmem
      clean := by
        intro i a ha
        have ha' := (hnone i).symm.trans ha
        cases ha'
      free := fun i q hq => absurd hq List.not_mem_nil
      call := fun q l hl => by cases hl
      unique := fun q r l m i hl => by cases hl
      past := fun q i hq => absurd hq List.not_mem_nil
      others := fun q l i r hl => by cases hl }

/-- The store and the calls after a schedule, from tables without invoices. -/
def paymentsAfter (hasGateway : Bool) (es : List PaymentEvent) :
    World BillingState PaymentCall :=
  (paymentRequests hasGateway).run (World.idle ⟨BillingDB.empty, []⟩) es

theorem safe_run (hasGateway : Bool) (es : List PaymentEvent) :
    Safe (paymentsAfter hasGateway es).store (paymentsAfter hasGateway es).at_ := by
  refine (paymentRequests hasGateway).run_invariant (I := Safe) ?_ ?_ ?_ ?_ es ?_
  · intro s calls p request h hp
    exact h.spawn hp request
  · intro s calls p reply k h hk
    exact h.step hk
  · intro s calls action h
    exact h.calm (act_calm action s.db)
  · intro s calls p k h hk
    exact System.stop_keeps h hk
  · exact safe_empty BillingDB.empty rfl rfl

/-- A call charges an invoice only when every earlier charge of the invoice was
rejected and the rejection persisted, the invoice carries no payment request, and
its attempt is in progress and retains no payment request id. -/
theorem xendit_charged_once (hasGateway : Bool) (es : List PaymentEvent) (e : PaymentEvent)
    (p : Nat) (i : Id)
    (h : (paymentsAfter hasGateway (es ++ [e])).store.trace =
      (paymentsAfter hasGateway es).store.trace ++ [.charged p i]) :
    (∀ q, .charged q i ∈ (paymentsAfter hasGateway es).store.trace →
      .rejected q i ∈ (paymentsAfter hasGateway es).store.trace ∧
      .persisted q i ∈ (paymentsAfter hasGateway es).store.trace) ∧
    (∃ row, (paymentsAfter hasGateway es).store.db.invoices.get i = some row ∧
      row.providerPaymentRequestId = none) ∧
    (∃ attempt, (paymentsAfter hasGateway es).store.db.attempts.get i = some attempt ∧
      attempt.state = .inProgress ∧ attempt.providerPaymentRequestId = none) := by
  have hsafe := safe_run hasGateway es
  have hsnoc : paymentsAfter hasGateway (es ++ [e]) =
      (paymentRequests hasGateway).exec (paymentsAfter hasGateway es) e :=
    (paymentRequests hasGateway).run_append _ _ _
  rw [hsnoc] at h
  have hnot {trace : List Observation} {o : Observation} : ¬ trace = trace ++ [o] := by simp
  obtain ⟨q, r, -, -, hs, -⟩ | ⟨q, c, k, -, -, hk, hs, -⟩ | ⟨o, -, hs, -⟩ |
    ⟨q, k, -, -, hs, -⟩ | ⟨hs, -⟩ := (paymentRequests hasGateway).exec_cases
      (paymentsAfter hasGateway es) e
  · rw [hs] at h
    exact absurd h hnot
  · rw [hs] at h
    rcases next_trace hasGateway q c k (paymentsAfter hasGateway es).store with
      htrace | ⟨o, ho, htrace⟩ | ⟨request, invoice, rfl, htrace⟩
    · exact absurd (htrace.symm.trans h) hnot
    · have hsame := List.append_cancel_left (htrace.symm.trans h)
      exact absurd (List.cons.inj hsame).1 (ho p i)
    · -- the step is the charge of call `p` on its invoice
      have hsame := List.append_cancel_left (htrace.symm.trans h)
      obtain ⟨rfl, rfl⟩ := Observation.charged.inj (List.cons.inj hsame).1
      obtain ⟨⟨attempt, hget, hprogress⟩, row, hrow, hreq, -⟩ := hsafe.call q _ hk
      refine ⟨fun r hr => ?_, ⟨row, hrow, hreq⟩, attempt, hget, hprogress,
        hsafe.clean _ attempt hget (.inl hprogress)⟩
      have hne : r ≠ q := by
        rintro rfl
        obtain ⟨l, hl, hpast⟩ := hsafe.past r _ hr
        rw [hk] at hl
        rw [← Option.some.inj hl] at hpast
        exact Bool.noConfusion hpast
      exact hsafe.others q _ _ r hk rfl ⟨attempt, hget, hprogress⟩ hr hne
  · rw [hs] at h
    exact absurd h hnot
  · rw [hs] at h
    exact absurd h hnot
  · rw [hs] at h
    exact absurd h hnot

/-- Two calls for one invoice: the first is rejected by the provider, which is
persisted, and the second has just won the claim. -/
def secondClaim : List PaymentEvent :=
  let request : PaymentRequest := ⟨1, 1, "QRIS"⟩
  let ok : Reply := .database .acknowledged
  [.act (.createInvoice 1 1 none "INV-202601-000001" 250000 "IDR"),
    .spawn 0 request, .step 0 ok, .step 0 ok, .step 0 ok, .step 0 ok,
    .step 0 (.gateway .rejected), .step 0 ok,
    .spawn 1 request, .step 1 ok, .step 1 ok, .step 1 ok]

theorem xendit_charged_once_example :
    (paymentsAfter true (secondClaim ++ [.step 1 (.database .acknowledged)])).store.trace =
      (paymentsAfter true secondClaim).store.trace ++ [.charged 1 1] ∧
    .charged 0 1 ∈ (paymentsAfter true secondClaim).store.trace ∧
    .persisted 0 1 ∈ (paymentsAfter true secondClaim).store.trace := by
  have hrun : (paymentsAfter true
      (secondClaim ++ [.step 1 (.database .acknowledged)])).store.trace =
      (paymentsAfter true secondClaim).store.trace ++ [.charged 1 1] := by decide +kernel
  have hcharged : .charged 0 1 ∈ (paymentsAfter true secondClaim).store.trace := by
    decide +kernel
  exact ⟨hrun, hcharged, ((xendit_charged_once true secondClaim _ 1 1 hrun).1 0 hcharged).2⟩

end Billing
end ERP
