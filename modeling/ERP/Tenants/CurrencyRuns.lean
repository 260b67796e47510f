import ERP.Tenants.Currency

/-!
# Runs of currency changes

A transaction that creates an order shares the tenant from its read of the currency to its
commit, and an update owns it from its check to its commit.  Between the snapshot of the
update and its lock nothing keeps an order from being committed.
-/

namespace ERP
namespace Tenants

open Lib

namespace TenantStore

def tenantAt (s : TenantStore) (id : Id) : Option Tenant := (s.tenants.cell id).committed

def rowAt (s : TenantStore) (kind : Kind) (key : Id × String) : Option FinancialRow :=
  ((s.table kind).cell key).committed

end TenantStore

/-- The tenant has a base currency, and this is its code. -/
def CodeOf (s : TenantStore) (tenantId : Id) (code : String) : Prop :=
  ∃ tenant currency, s.tenantAt tenantId = some tenant ∧ tenant.currencyCode = some currency ∧
    code = currency.code

/-- Every order and purchase order has the currency of its tenant. -/
def Consistent (s : TenantStore) : Prop :=
  ∀ kind key row, s.rowAt kind key = some row → CodeOf s row.tenantId row.currencyCode

def NoRows (s : TenantStore) (tenantId : Id) : Prop :=
  ∀ kind key row, s.rowAt kind key = some row → row.tenantId ≠ tenantId

/-- An update that replaces the currency and has counted no transaction. -/
def Snapshot.passes (snap : Snapshot) (data : UpdateTenant) : Prop :=
  ∃ tenant, snap.tenant = some tenant ∧ data.replacesCurrency tenant = true ∧ snap.transactions = 0

/-- The call has locked the tenant `FOR UPDATE`. -/
def TenantCall.owns (id : Id) : TenantCall → Prop
  | .updateCount id' _ _ _ | .updateWrite id' _ _ | .updateCommit id' _ _ => id' = id
  | _ => False

/-- The call has locked the tenant `FOR SHARE`. -/
def TenantCall.sharesTenant (id : Id) : TenantCall → Prop
  | .createRow _ row | .createItems _ row | .createCommit _ row => row.tenantId = id
  | _ => False

/-- What a call relies on where it stands. -/
def Stands (s : TenantStore) (p : Nat) : TenantCall → Prop
  | .updateLock id data snap => snap.version ≤ (s.tenants.cell id).version ∧
      ((s.tenants.cell id).version = snap.version →
        s.tenantAt id = snap.tenant ∧ (snap.passes data → NoRows s id))
  | .updateCount id data tenant snap => (s.tenants.cell id).lock = some ⟨p, none⟩ ∧
      s.tenantAt id = some tenant ∧ (snap.transactions = 0 → NoRows s id) ∧
      data.replacesCurrency tenant = true
  | .updateWrite id data tenant => (s.tenants.cell id).lock = some ⟨p, none⟩ ∧
      s.tenantAt id = some tenant ∧ (data.replacesCurrency tenant = true → NoRows s id)
  | .updateCommit id data tenant =>
      (s.tenants.cell id).lock = some ⟨p, some (some (data.apply tenant))⟩ ∧
      s.tenantAt id = some tenant ∧ (data.replacesCurrency tenant = true → NoRows s id)
  | .createRow _ row | .createItems _ row | .createCommit _ row =>
      (p, row.tenantId) ∈ s.shares ∧ CodeOf s row.tenantId row.currencyCode
  | _ => True

/-- What holds between any two steps. -/
structure Agreed (s : TenantStore) (calls : Nat → Option TenantCall) : Prop where
  consistent : Consistent s
  owner : ∀ id q w, (s.tenants.cell id).lock = some ⟨q, w⟩ → ∃ k, calls q = some k ∧ k.owns id
  shares : ∀ q id, (q, id) ∈ s.shares →
    (∃ k, calls q = some k ∧ k.sharesTenant id) ∧ (s.tenants.cell id).lock = none
  rowLock : ∀ kind key q w, ((s.table kind).cell key).lock = some ⟨q, w⟩ →
    ∃ row, w = some (some row) ∧
      (calls q = some (.createItems kind row) ∨ calls q = some (.createCommit kind row))
  stands : ∀ q k, calls q = some k → Stands s q k

/-- A step of `p` that commits nothing, as the others find it. -/
structure Kept (s s' : TenantStore) (p : Nat) : Prop where
  tenantAt : ∀ id, s'.tenantAt id = s.tenantAt id
  version : ∀ id, (s'.tenants.cell id).version = (s.tenants.cell id).version
  rowAt : ∀ kind key, s'.rowAt kind key = s.rowAt kind key
  locks : ∀ id q w, q ≠ p →
    ((s'.tenants.cell id).lock = some ⟨q, w⟩ ↔ (s.tenants.cell id).lock = some ⟨q, w⟩)
  shares : ∀ q id, q ≠ p → ((q, id) ∈ s'.shares ↔ (q, id) ∈ s.shares)

variable {s s' : TenantStore} {calls : Nat → Option TenantCall} {p : Nat} {k k' : TenantCall}

theorem CodeOf.congr {id : Id} {code : String} (h : CodeOf s id code)
    (hat : s'.tenantAt id = s.tenantAt id) : CodeOf s' id code := by
  obtain ⟨tenant, currency, htenant, hcurrency, hcode⟩ := h
  exact ⟨tenant, currency, hat.trans htenant, hcurrency, hcode⟩

theorem NoRows.congr {id : Id} (h : NoRows s id)
    (hrows : ∀ kind key, s'.rowAt kind key = s.rowAt kind key) : NoRows s' id := by
  intro kind key row hrow
  exact h kind key row ((hrows kind key).symm.trans hrow)

theorem Stands.kept {q : Nat} (h : Stands s q k) (hq : q ≠ p) (hkept : Kept s s' p) :
    Stands s' q k := by
  cases k with
  | updateLock id data snap =>
      obtain ⟨hle, hcurrent⟩ := h
      show snap.version ≤ (s'.tenants.cell id).version ∧ _
      rw [hkept.version]
      refine ⟨hle, fun hversion => ?_⟩
      obtain ⟨htenant, hpasses⟩ := hcurrent hversion
      exact ⟨(hkept.tenantAt id).trans htenant, fun hp => (hpasses hp).congr hkept.rowAt⟩
  | updateCount id data tenant snap =>
      obtain ⟨hlock, htenant, hrows, hreplaces⟩ := h
      exact ⟨(hkept.locks id q _ hq).mpr hlock, (hkept.tenantAt id).trans htenant,
        fun hzero => (hrows hzero).congr hkept.rowAt, hreplaces⟩
  | updateWrite id data tenant =>
      obtain ⟨hlock, htenant, hrows⟩ := h
      exact ⟨(hkept.locks id q _ hq).mpr hlock, (hkept.tenantAt id).trans htenant,
        fun hreplaces => (hrows hreplaces).congr hkept.rowAt⟩
  | updateCommit id data tenant =>
      obtain ⟨hlock, htenant, hrows⟩ := h
      exact ⟨(hkept.locks id q _ hq).mpr hlock, (hkept.tenantAt id).trans htenant,
        fun hreplaces => (hrows hreplaces).congr hkept.rowAt⟩
  | createRow kind row =>
      exact ⟨(hkept.shares q _ hq).mpr h.1, h.2.congr (hkept.tenantAt _)⟩
  | createItems kind row =>
      exact ⟨(hkept.shares q _ hq).mpr h.1, h.2.congr (hkept.tenantAt _)⟩
  | createCommit kind row =>
      exact ⟨(hkept.shares q _ hq).mpr h.1, h.2.congr (hkept.tenantAt _)⟩
  | _ => exact trivial

/-- A call moves on and commits nothing. -/
theorem Agreed.move (h : Agreed s calls) (hkept : Kept s s' p)
    (howner : ∀ id w, (s'.tenants.cell id).lock = some ⟨p, w⟩ →
      k'.owns id ∧ ∀ q, (q, id) ∉ s'.shares)
    (hshares : ∀ id, (p, id) ∈ s'.shares →
      k'.sharesTenant id ∧ (s'.tenants.cell id).lock = none)
    (hrowLock : ∀ kind key q w, ((s'.table kind).cell key).lock = some ⟨q, w⟩ →
      q = p ∧ (∃ row, w = some (some row) ∧
        (k' = .createItems kind row ∨ k' = .createCommit kind row)) ∨
      q ≠ p ∧ ((s.table kind).cell key).lock = some ⟨q, w⟩)
    (hstands : Stands s' p k') : Agreed s' (Function.update calls p (some k')) where
  consistent := by
    intro kind key row hrow
    rw [hkept.rowAt] at hrow
    exact (h.consistent kind key row hrow).congr (hkept.tenantAt _)
  owner := by
    intro id q w hlock
    by_cases hq : q = p
    · subst hq
      exact ⟨k', Function.update_self .., (howner id w hlock).1⟩
    · rw [Function.update_of_ne hq]
      exact h.owner id q w ((hkept.locks id q w hq).mp hlock)
  shares := by
    intro q id hshare
    by_cases hq : q = p
    · subst hq
      obtain ⟨hk', hfree⟩ := hshares id hshare
      exact ⟨⟨k', Function.update_self .., hk'⟩, hfree⟩
    · obtain ⟨hcall, hfree⟩ := h.shares q id ((hkept.shares q id hq).mp hshare)
      rw [Function.update_of_ne hq]
      refine ⟨hcall, ?_⟩
      cases hlock : (s'.tenants.cell id).lock with
      | none => rfl
      | some l =>
          obtain ⟨i, w⟩ := l
          by_cases hi : i = p
          · subst hi
            exact absurd hshare ((howner id w hlock).2 q)
          · rw [hkept.locks id i w hi, hfree] at hlock
            cases hlock
  rowLock := by
    intro kind key q w hlock
    obtain ⟨rfl, row, hw, hk'⟩ | ⟨hq, hlock⟩ := hrowLock kind key q w hlock
    · refine ⟨row, hw, ?_⟩
      rw [Function.update_self]
      obtain rfl | rfl := hk'
      · exact .inl rfl
      · exact .inr rfl
    · rw [Function.update_of_ne hq]
      exact h.rowLock kind key q w hlock
  stands := by
    intro q call hcall
    by_cases hq : q = p
    · subst hq
      rw [Function.update_self] at hcall
      cases hcall
      exact hstands
    · rw [Function.update_of_ne hq] at hcall
      exact (h.stands q call hcall).kept hq hkept

/-- What a call holds, by where it stands. -/
theorem Agreed.owns_of_lock (h : Agreed s calls) (hk : calls p = some k) {id : Id}
    {w : Option (Option Tenant)} (hlock : (s.tenants.cell id).lock = some ⟨p, w⟩) : k.owns id := by
  obtain ⟨call, hcall, howns⟩ := h.owner id p w hlock
  rw [hk] at hcall
  cases hcall
  exact howns

theorem Agreed.shares_of_mem (h : Agreed s calls) (hk : calls p = some k) {id : Id}
    (hshare : (p, id) ∈ s.shares) : k.sharesTenant id := by
  obtain ⟨⟨call, hcall, hshares⟩, -⟩ := h.shares p id hshare
  rw [hk] at hcall
  cases hcall
  exact hshares

theorem Agreed.row_of_lock (h : Agreed s calls) (hk : calls p = some k) {kind : Kind}
    {key : Id × String} {w : Option (Option FinancialRow)}
    (hlock : ((s.table kind).cell key).lock = some ⟨p, w⟩) :
    ∃ row, w = some (some row) ∧ (k = .createItems kind row ∨ k = .createCommit kind row) := by
  obtain ⟨row, hw, hcall⟩ := h.rowLock kind key p w hlock
  refine ⟨row, hw, ?_⟩
  rw [hk] at hcall
  obtain hcall | hcall := hcall
  · exact .inl (Option.some.inj hcall)
  · exact .inr (Option.some.inj hcall)

theorem Kept.refl (s : TenantStore) (p : Nat) : Kept s s p where
  tenantAt := fun _ => rfl
  version := fun _ => rfl
  rowAt := fun _ _ => rfl
  locks := fun _ _ _ _ => Iff.rfl
  shares := fun _ _ _ => Iff.rfl

/-- A step that touches no lock: what `p` holds fits its next state. -/
theorem Agreed.stay (h : Agreed s calls) (hk : calls p = some k)
    (howns : ∀ id, k.owns id → k'.owns id) (hshares : ∀ id, k.sharesTenant id → k'.sharesTenant id)
    (hrows : ∀ kind row, k = .createItems kind row ∨ k = .createCommit kind row →
      k' = .createItems kind row ∨ k' = .createCommit kind row)
    (hstands : Stands s p k') : Agreed s (Function.update calls p (some k')) := by
  refine h.move (Kept.refl s p) ?_ ?_ ?_ hstands
  · intro id w hlock
    refine ⟨howns id (h.owns_of_lock hk hlock), fun q hshare => ?_⟩
    rw [(h.shares q id hshare).2] at hlock
    cases hlock
  · intro id hshare
    exact ⟨hshares id (h.shares_of_mem hk hshare), (h.shares p id hshare).2⟩
  · intro kind key q w hlock
    by_cases hq : q = p
    · subst hq
      obtain ⟨row, hw, hcall⟩ := h.row_of_lock hk hlock
      exact .inl ⟨rfl, row, hw, hrows kind row hcall⟩
    · exact .inr ⟨hq, hlock⟩

/-- A step of a call that holds nothing. -/
theorem Agreed.read (h : Agreed s calls) (hk : calls p = some k) (howns : ∀ id, ¬ k.owns id)
    (hshares : ∀ id, ¬ k.sharesTenant id) (hstands : Stands s p k') :
    Agreed s (Function.update calls p (some k')) := by
  refine h.stay hk (fun id hid => absurd hid (howns id)) (fun id hid => absurd hid (hshares id))
    ?_ hstands
  rintro kind row (rfl | rfl)
  · exact absurd rfl (hshares row.tenantId)
  · exact absurd rfl (hshares row.tenantId)

theorem table_rollback (s : TenantStore) (p : Nat) (kind : Kind) :
    (s.rollback p).table kind = (s.table kind).rollback p := by
  cases kind with
  | salesOrder => rfl
  | purchaseOrder => rfl

theorem table_commit (s : TenantStore) (p : Nat) (kind : Kind) :
    (s.commit p).table kind = (s.table kind).commit p := by
  cases kind with
  | salesOrder => rfl
  | purchaseOrder => rfl

theorem mem_released {q : Nat} {id : Id} :
    (q, id) ∈ s.shares.filter (fun share => share.1 ≠ p) ↔ (q, id) ∈ s.shares ∧ q ≠ p := by
  rw [List.mem_filter, decide_eq_true_eq]

/-- The end of `p` changes the locks of no other. -/
theorem lock_release_iff {V : Type} {c : Cell V} {q : Nat} {w : Option (Option V)} (hq : q ≠ p) :
    (c.release p).lock = some ⟨q, w⟩ ↔ c.lock = some ⟨q, w⟩ := by
  refine ⟨Cell.lock_of_release, fun hlock => ?_⟩
  have hp : ¬ c.heldBy p := fun hp => hq (Cell.heldBy_unique ⟨_, hlock, rfl⟩ hp)
  rw [Cell.release_of_not_heldBy hp]
  exact hlock

theorem Kept.rollback (s : TenantStore) (p : Nat) : Kept s (s.rollback p) p where
  tenantAt := fun id => Cell.release_committed (s.tenants.cell id) p
  version := by
    intro id
    show ((s.tenants.cell id).release p).version = _
    unfold Cell.release
    split
    · split
      · rfl
      · rfl
    · rfl
  rowAt := by
    intro kind key
    rw [TenantStore.rowAt, table_rollback]
    exact Cell.release_committed ((s.table kind).cell key) p
  locks := fun id q w hq => lock_release_iff hq
  shares := by
    intro q id hq
    show (q, id) ∈ s.shares.filter _ ↔ _
    rw [mem_released]
    exact ⟨And.left, fun hshare => ⟨hshare, hq⟩⟩

/-- The transaction of a call is rolled back. -/
theorem Agreed.rollback (h : Agreed s calls) (hstands : Stands (s.rollback p) p k') :
    Agreed (s.rollback p) (Function.update calls p (some k')) := by
  refine h.move (Kept.rollback s p) ?_ ?_ ?_ hstands
  · intro id w hlock
    exact absurd ⟨_, hlock, rfl⟩ (Cell.not_heldBy_release (s.tenants.cell id) p)
  · intro id hshare
    exact absurd rfl (mem_released.mp hshare).2
  · intro kind key q w hlock
    rw [table_rollback] at hlock
    refine .inr ⟨?_, Cell.lock_of_release hlock⟩
    rintro rfl
    exact Cell.not_heldBy_release ((s.table kind).cell key) q ⟨_, hlock, rfl⟩

theorem Agreed.not_held (h : Agreed s calls) (hk : calls p = some k) (howns : ∀ id, ¬ k.owns id)
    (id : Id) : ¬ (s.tenants.cell id).heldBy p := by
  rintro ⟨⟨q, w⟩, hlock, rfl⟩
  exact howns id (h.owns_of_lock hk hlock)

theorem Agreed.not_held_row (h : Agreed s calls) (hk : calls p = some k)
    (hshares : ∀ id, ¬ k.sharesTenant id) (kind : Kind) (key : Id × String) :
    ¬ ((s.table kind).cell key).heldBy p := by
  rintro ⟨⟨q, w⟩, hlock, rfl⟩
  obtain ⟨row, -, rfl | rfl⟩ := h.row_of_lock hk hlock
  · exact hshares row.tenantId rfl
  · exact hshares row.tenantId rfl

/-- What a call that holds no row counts are the committed rows. -/
theorem noRows_of_count (hfree : ∀ kind key, ¬ ((s.table kind).cell key).heldBy p) {id : Id}
    (hcount : ∀ kind, s.count p kind id = 0) : NoRows s id := by
  intro kind key row hrow htenant
  have hvisible : ((s.table kind).cell key).visible p = some row := by
    rw [Cell.visible_of_not_heldBy (hfree kind key)]
    exact hrow
  have hmem : row ∈ (s.table kind).read p :=
    LockedTable.mem_read.mpr ⟨key, LockedTable.mem_keys_of_visible hvisible, hvisible⟩
  have hnone := List.countP_eq_zero.mp (hcount kind) row hmem
  exact hnone (decide_eq_true htenant)

theorem Agreed.updateBegin (h : Agreed s calls) {id : Id} {data : UpdateTenant}
    (hk : calls p = some (.updateBegin id data)) :
    Agreed s (Function.update calls p (some (TenantCall.next p (.updateBegin id data) s).1)) := by
  refine h.read hk (fun _ => nofun) (fun _ => nofun) ⟨le_rfl, fun _ => ⟨?_, ?_⟩⟩
  · exact (Cell.visible_of_not_heldBy (h.not_held hk (fun _ => nofun) id)).symm
  · rintro ⟨tenant, -, -, hzero⟩
    refine noRows_of_count (h.not_held_row hk fun _ => nofun) fun kind => ?_
    have hsum : s.count p .salesOrder id + s.count p .purchaseOrder id + s.payments.count id = 0 :=
      hzero
    cases kind with
    | salesOrder => omega
    | purchaseOrder => omega

theorem cell_hold {i id : Id} : ((s.holdTenant p id).tenants.cell i) =
    if i = id then (s.tenants.cell id).hold p else s.tenants.cell i := by
  by_cases hi : i = id
  · rw [if_pos hi, hi]
    exact LockedTable.set_cell_self
  · rw [if_neg hi]
    exact LockedTable.set_cell_of_ne hi

theorem cell_writeTenant {i id : Id} {tenant : Tenant} :
    ((s.writeTenant p id tenant).tenants.cell i) =
      if i = id then (s.tenants.cell id).write p (some tenant) else s.tenants.cell i := by
  by_cases hi : i = id
  · rw [if_pos hi, hi]
    exact LockedTable.set_cell_self
  · rw [if_neg hi]
    exact LockedTable.set_cell_of_ne hi

theorem table_holdTenant (id : Id) (kind : Kind) :
    (s.holdTenant p id).table kind = s.table kind := by
  cases kind with
  | salesOrder => rfl
  | purchaseOrder => rfl

theorem table_writeTenant (id : Id) (tenant : Tenant) (kind : Kind) :
    (s.writeTenant p id tenant).table kind = s.table kind := by
  cases kind with
  | salesOrder => rfl
  | purchaseOrder => rfl

theorem table_share (id : Id) (kind : Kind) : (s.share p id).table kind = s.table kind := by
  cases kind with
  | salesOrder => rfl
  | purchaseOrder => rfl

/-- A call takes the lock that it waited for. -/
theorem Agreed.hold (h : Agreed s calls) {id : Id} {data : UpdateTenant} {snap : Snapshot}
    (hk : calls p = some (.updateLock id data snap)) (hexclusive : s.exclusive p id = true)
    (howns : ∀ i, k'.owns i ↔ i = id)
    (hstands : (s.tenants.cell id).lock = none → Stands (s.holdTenant p id) p k') :
    Agreed (s.holdTenant p id) (Function.update calls p (some k')) := by
  obtain ⟨havailable, hshared⟩ := Bool.and_eq_true_iff.mp hexclusive
  have hfree : (s.tenants.cell id).lock = none :=
    Cell.lock_eq_none havailable (h.not_held hk (fun _ => nofun) id)
  -- nobody shares the tenant: `p` itself shares none
  have hnobody (q : Nat) : (q, id) ∉ s.shares := by
    intro hshare
    have hcond := List.all_eq_true.mp hshared _ hshare
    rw [Bool.or_eq_true, decide_eq_true_eq, decide_eq_true_eq] at hcond
    obtain hne | rfl := hcond
    · exact hne rfl
    · exact h.shares_of_mem hk hshare
  have hlocked : ((s.tenants.cell id).hold p).lock = some ⟨p, none⟩ := Cell.hold_lock hfree
  have hother {i : Id} {q : Nat} {w : Option (Option Tenant)} (hq : q ≠ p) :
      ((s.holdTenant p id).tenants.cell i).lock = some ⟨q, w⟩ ↔
        (s.tenants.cell i).lock = some ⟨q, w⟩ := by
    rw [cell_hold]
    by_cases hi : i = id
    · subst hi
      rw [if_pos rfl, hlocked, hfree]
      constructor
      · rintro ⟨⟩
        exact absurd rfl hq
      · exact nofun
    · rw [if_neg hi]
  refine h.move ?_ ?_ ?_ ?_ (hstands hfree)
  · constructor
    · intro i
      rw [TenantStore.tenantAt, cell_hold]
      by_cases hi : i = id
      · rw [if_pos hi, Cell.hold_committed, hi]
        rfl
      · rw [if_neg hi]
        rfl
    · intro i
      rw [cell_hold]
      by_cases hi : i = id
      · rw [if_pos hi, hi]
        unfold Cell.hold
        rw [hfree]
      · rw [if_neg hi]
    · intro kind key
      rw [TenantStore.rowAt, table_holdTenant]
      rfl
    · exact fun i q w hq => hother hq
    · exact fun _ _ _ => Iff.rfl
  · intro i w hlock
    rw [cell_hold] at hlock
    by_cases hi : i = id
    · exact ⟨(howns i).mpr hi, hi ▸ hnobody⟩
    · rw [if_neg hi] at hlock
      exact (h.not_held hk (fun _ => nofun) i ⟨_, hlock, rfl⟩).elim
  · intro i hshare
    exact (h.shares_of_mem hk hshare).elim
  · intro kind key q w hlock
    rw [table_holdTenant] at hlock
    refine .inr ⟨?_, hlock⟩
    rintro rfl
    exact h.not_held_row hk (fun _ => nofun) kind key ⟨_, hlock, rfl⟩

theorem Agreed.updateLock (h : Agreed s calls) {id : Id} {data : UpdateTenant} {snap : Snapshot}
    (hk : calls p = some (.updateLock id data snap)) :
    Agreed (TenantCall.next p (.updateLock id data snap) s).2
      (Function.update calls p (some (TenantCall.next p (.updateLock id data snap) s).1)) := by
  dsimp only [TenantCall.next]
  split
  · exact h.read hk (fun _ => nofun) (fun _ => nofun) trivial
  · rename_i tenant hfilter
    split
    · exact System.stop_keeps h hk
    · rename_i hexclusive
      split
      · exact h.read hk (fun _ => nofun) (fun _ => nofun) trivial
      · rename_i hversion
        obtain ⟨hsnap, -⟩ := Option.filter_eq_some_iff.mp hfilter
        obtain ⟨hat, hpasses⟩ := (h.stands p _ hk).2 (of_not_not hversion)
        have htenant : s.tenantAt id = some tenant := hat.trans hsnap
        have hcell (hfree : (s.tenants.cell id).lock = none) :
            ((s.holdTenant p id).tenants.cell id).lock = some ⟨p, none⟩ := by
          rw [cell_hold, if_pos rfl]
          exact Cell.hold_lock hfree
        have hafter : (s.holdTenant p id).tenantAt id = some tenant := by
          rw [TenantStore.tenantAt, cell_hold, if_pos rfl, Cell.hold_committed]
          exact htenant
        have hrows (hnone : NoRows s id) : NoRows (s.holdTenant p id) id := by
          refine hnone.congr fun kind key => ?_
          rw [TenantStore.rowAt, table_holdTenant]
          rfl
        by_cases hreplaces : data.replacesCurrency tenant = true
        · rw [if_pos hreplaces]
          refine h.hold hk (Bool.of_not_eq_false hexclusive) (fun i => eq_comm) fun hfree => ?_
          exact ⟨hcell hfree, hafter, fun hzero =>
            hrows (hpasses ⟨tenant, hsnap, hreplaces, hzero⟩),
            hreplaces⟩
        · rw [if_neg hreplaces]
          refine h.hold hk (Bool.of_not_eq_false hexclusive) (fun i => eq_comm) fun hfree => ?_
          exact ⟨hcell hfree, hafter, fun h => absurd h hreplaces⟩

theorem Agreed.updateCount (h : Agreed s calls) {id : Id} {data : UpdateTenant} {tenant : Tenant}
    {snap : Snapshot} (hk : calls p = some (.updateCount id data tenant snap)) :
    Agreed (TenantCall.next p (.updateCount id data tenant snap) s).2
      (Function.update calls p
        (some (TenantCall.next p (.updateCount id data tenant snap) s).1)) := by
  dsimp only [TenantCall.next]
  split
  · exact h.rollback trivial
  · rename_i hzero
    obtain ⟨hlock, htenant, hrows, -⟩ := h.stands p _ hk
    refine h.stay hk (fun _ hid => hid) (fun _ => nofun) ?_
      ⟨hlock, htenant, fun _ => hrows (Nat.eq_zero_of_not_pos hzero)⟩
    rintro kind row (hcall | hcall)
    · cases hcall
    · cases hcall

theorem Agreed.updateWrite (h : Agreed s calls) {id : Id} {data : UpdateTenant} {tenant : Tenant}
    (hk : calls p = some (.updateWrite id data tenant)) :
    Agreed (s.writeTenant p id (data.apply tenant))
      (Function.update calls p (some (.updateCommit id data tenant))) := by
  obtain ⟨hlock, htenant, hrows⟩ := h.stands p _ hk
  have hcommitted (i : Id) :
      (s.writeTenant p id (data.apply tenant)).tenantAt i = s.tenantAt i := by
    rw [TenantStore.tenantAt, cell_writeTenant]
    by_cases hi : i = id
    · rw [if_pos hi, Cell.write_committed, hi]
      rfl
    · rw [if_neg hi]
      rfl
  have hrowAt (kind : Kind) (key : Id × String) :
      (s.writeTenant p id (data.apply tenant)).rowAt kind key = s.rowAt kind key := by
    rw [TenantStore.rowAt, table_writeTenant]
    rfl
  refine h.move ?_ ?_ ?_ ?_ ?_
  · refine ⟨hcommitted, fun i => ?_, hrowAt, fun i q w hq => ?_, fun _ _ _ => Iff.rfl⟩
    · rw [cell_writeTenant]
      by_cases hi : i = id
      · rw [if_pos hi, hi]
        rfl
      · rw [if_neg hi]
    · rw [cell_writeTenant]
      by_cases hi : i = id
      · subst hi
        rw [if_pos rfl, hlock]
        constructor
        · rintro ⟨⟩
          exact absurd rfl hq
        · rintro ⟨⟩
          exact absurd rfl hq
      · rw [if_neg hi]
  · intro i w hl
    rw [cell_writeTenant] at hl
    have howns : i = id := by
      by_contra hi
      rw [if_neg hi] at hl
      exact hi (h.owns_of_lock hk hl).symm
    refine ⟨howns.symm, fun q hshare => ?_⟩
    have hfree := (h.shares q i hshare).2
    rw [howns, hlock] at hfree
    cases hfree
  · intro i hshare
    exact (h.shares_of_mem hk hshare).elim
  · intro kind key q w hl
    rw [table_writeTenant] at hl
    refine .inr ⟨?_, hl⟩
    rintro rfl
    exact h.not_held_row hk (fun _ => nofun) kind key ⟨_, hl, rfl⟩
  · refine ⟨?_, (hcommitted id).trans htenant, fun hreplaces => (hrows hreplaces).congr hrowAt⟩
    rw [cell_writeTenant, if_pos rfl]
    rfl

theorem Agreed.createShare (h : Agreed s calls) {kind : Kind} {tenantId : Id} {number : String}
    (hk : calls p = some (.createShare kind tenantId number)) :
    Agreed (TenantCall.next p (.createShare kind tenantId number) s).2 (Function.update calls p
      (some (TenantCall.next p (.createShare kind tenantId number) s).1)) := by
  dsimp only [TenantCall.next]
  split
  · exact System.stop_keeps h hk
  · rename_i havailable
    have hnot := h.not_held hk (fun _ => nofun) tenantId
    have hfree : (s.tenants.cell tenantId).lock = none :=
      Cell.lock_eq_none (Bool.of_not_eq_false havailable) hnot
    split
    · exact h.read hk (fun _ => nofun) (fun _ => nofun) trivial
    · rename_i tenant hfilter
      obtain ⟨hvisible, -⟩ := Option.filter_eq_some_iff.mp hfilter
      rw [Cell.visible_of_not_heldBy hnot] at hvisible
      split
      · exact h.read hk (fun _ => nofun) (fun _ => nofun) trivial
      · rename_i currencyCode hcode
        obtain ⟨hmap, -⟩ := Option.filter_eq_some_iff.mp hcode
        obtain ⟨currency, hcurrency, htrim⟩ := Option.map_eq_some_iff.mp hmap
        have hcodeOf : CodeOf s tenantId currencyCode :=
          ⟨tenant, currency, hvisible, hcurrency, htrim.symm.trans currency.trimmed⟩
        refine h.move ?_ ?_ ?_ ?_ ?_
        · refine ⟨fun _ => rfl, fun _ => rfl, fun kind' key => ?_, fun _ _ _ _ => Iff.rfl,
            fun q i hq => ?_⟩
          · rw [TenantStore.rowAt, table_share]
            rfl
          · constructor
            · intro hshare
              obtain heq | hold := List.mem_cons.mp hshare
              · exact absurd (Prod.mk.inj heq).1 hq
              · exact hold
            · exact List.mem_cons_of_mem _
        · intro i w hlock
          exact (h.not_held hk (fun _ => nofun) i ⟨_, hlock, rfl⟩).elim
        · intro i hshare
          obtain heq | hold := List.mem_cons.mp hshare
          · obtain ⟨-, rfl⟩ := Prod.mk.inj heq
            exact ⟨rfl, hfree⟩
          · exact (h.shares_of_mem hk hold).elim
        · intro kind' key q w hlock
          rw [table_share] at hlock
          refine .inr ⟨?_, hlock⟩
          rintro rfl
          exact h.not_held_row hk (fun _ => nofun) kind' key ⟨_, hlock, rfl⟩
        · exact ⟨List.mem_cons_self, hcodeOf⟩

/-- The cells of the tables after an insert. -/
theorem cell_writeRow {kind kind' : Kind} {row : FinancialRow} {key : Id × String} :
    (((s.writeRow p kind row).table kind').cell key) =
      if kind' = kind ∧ key = row.key then ((s.table kind).cell row.key).write p (some row)
      else (s.table kind').cell key := by
  by_cases hkind : kind' = kind
  · subst hkind
    have htable : (s.writeRow p kind' row).table kind' =
        (s.table kind').set row.key (((s.table kind').cell row.key).write p (some row)) := by
      cases kind' with
      | salesOrder => rfl
      | purchaseOrder => rfl
    rw [htable]
    by_cases hkey : key = row.key
    · rw [if_pos ⟨rfl, hkey⟩, hkey, LockedTable.set_cell_self]
    · rw [if_neg fun h => hkey h.2, LockedTable.set_cell_of_ne hkey]
  · rw [if_neg fun h => hkind h.1]
    cases kind with
    | salesOrder =>
        cases kind' with
        | salesOrder => exact absurd rfl hkind
        | purchaseOrder => rfl
    | purchaseOrder =>
        cases kind' with
        | salesOrder => rfl
        | purchaseOrder => exact absurd rfl hkind

theorem tenants_writeRow (kind : Kind) (row : FinancialRow) :
    (s.writeRow p kind row).tenants = s.tenants ∧ (s.writeRow p kind row).shares = s.shares := by
  cases kind with
  | salesOrder => exact ⟨rfl, rfl⟩
  | purchaseOrder => exact ⟨rfl, rfl⟩

theorem Agreed.writeRow (h : Agreed s calls) {kind : Kind} {row : FinancialRow}
    (hk : calls p = some (.createRow kind row))
    (hk' : k' = .createItems kind row ∨ k' = .createCommit kind row) :
    Agreed (s.writeRow p kind row) (Function.update calls p (some k')) := by
  obtain ⟨htenants, hsharesEq⟩ := tenants_writeRow (s := s) (p := p) kind row
  have htenantAt (id : Id) : (s.writeRow p kind row).tenantAt id = s.tenantAt id := by
    rw [TenantStore.tenantAt, htenants]
    rfl
  have hnoRow (kind' : Kind) (key : Id × String) (w : Option (Option FinancialRow)) :
      ((s.table kind').cell key).lock ≠ some ⟨p, w⟩ := by
    intro hlock
    obtain ⟨row', -, hcall | hcall⟩ := h.row_of_lock hk hlock
    · cases hcall
    · cases hcall
  have hshares (id : Id) (hid : row.tenantId = id) : k'.sharesTenant id := by
    obtain rfl | rfl := hk'
    · exact hid
    · exact hid
  refine h.move ?_ ?_ ?_ ?_ ?_
  · refine ⟨htenantAt, fun id => by rw [htenants], fun kind' key => ?_, fun _ _ _ _ =>
      by rw [htenants],
      fun _ _ _ => by rw [hsharesEq]⟩
    rw [TenantStore.rowAt, cell_writeRow]
    split
    · rename_i heq
      rw [Cell.write_committed, heq.1, heq.2]
      rfl
    · rfl
  · intro id w hlock
    rw [htenants] at hlock
    exact (h.not_held hk (fun _ => nofun) id ⟨_, hlock, rfl⟩).elim
  · intro id hshare
    rw [hsharesEq] at hshare
    rw [htenants]
    exact ⟨hshares id (h.shares_of_mem hk hshare), (h.shares p id hshare).2⟩
  · intro kind' key q w hlock
    rw [cell_writeRow] at hlock
    split at hlock
    · rename_i heq
      cases hlock
      rw [heq.1]
      exact .inl ⟨rfl, row, rfl, hk'⟩
    · refine .inr ⟨?_, hlock⟩
      rintro rfl
      exact hnoRow kind' key w hlock
  · have hstands : (p, row.tenantId) ∈ s.shares ∧ CodeOf s row.tenantId row.currencyCode :=
      h.stands p _ hk
    have hafter : (p, row.tenantId) ∈ (s.writeRow p kind row).shares ∧
        CodeOf (s.writeRow p kind row) row.tenantId row.currencyCode :=
      ⟨hsharesEq ▸ hstands.1, hstands.2.congr (htenantAt _)⟩
    obtain rfl | rfl := hk'
    · exact hafter
    · exact hafter

theorem Agreed.createRow (h : Agreed s calls) {kind : Kind} {row : FinancialRow}
    (hk : calls p = some (.createRow kind row)) :
    Agreed (TenantCall.next p (.createRow kind row) s).2
      (Function.update calls p (some (TenantCall.next p (.createRow kind row) s).1)) := by
  dsimp only [TenantCall.next]
  split
  · exact h.rollback trivial
  · split
    · exact System.stop_keeps h hk
    · cases kind with
      | salesOrder => exact h.writeRow hk (.inl rfl)
      | purchaseOrder => exact h.writeRow hk (.inr rfl)

theorem apply_currencyCode {data : UpdateTenant} {tenant : Tenant} {currency : CurrencyCode}
    (hcurrency : tenant.currencyCode = some currency)
    (hkeeps : ¬ data.replacesCurrency tenant = true) :
    (data.apply tenant).currencyCode = some currency := by
  show (data.currencyCode <|> tenant.currencyCode) = some currency
  cases hdata : data.currencyCode with
  | none => exact hcurrency
  | some new =>
      have hsame : new = currency := by
        by_contra hne
        refine hkeeps ?_
        unfold UpdateTenant.replacesCurrency
        rw [hdata, hcurrency]
        exact decide_eq_true hne
      rw [hsame]
      rfl

/-- The commit of a transaction changes what it has written. -/
theorem tenantAt_commit (s : TenantStore) (p : Nat) (id : Id) :
    (s.commit p).tenantAt id = (s.tenants.cell id).visible p :=
  Cell.commit_committed (s.tenants.cell id) p

theorem rowAt_commit (s : TenantStore) (p : Nat) (kind : Kind) (key : Id × String) :
    (s.commit p).rowAt kind key = ((s.table kind).cell key).visible p := by
  rw [TenantStore.rowAt, table_commit]
  exact Cell.commit_committed ((s.table kind).cell key) p

/-- The locks after a commit. -/
theorem Agreed.commit_locks (h : Agreed s calls) :
    (∀ id q w, ((s.commit p).tenants.cell id).lock = some ⟨q, w⟩ →
      q ≠ p ∧ ∃ k, calls q = some k ∧ k.owns id) ∧
    (∀ q id, (q, id) ∈ (s.commit p).shares → q ≠ p ∧ (∃ k, calls q = some k ∧ k.sharesTenant id) ∧
      ((s.commit p).tenants.cell id).lock = none) ∧
    ∀ kind key q w, (((s.commit p).table kind).cell key).lock = some ⟨q, w⟩ →
      q ≠ p ∧ ∃ row, w = some (some row) ∧
        (calls q = some (.createItems kind row) ∨ calls q = some (.createCommit kind row)) := by
  refine ⟨?_, ?_, ?_⟩
  · intro id q w hlock
    refine ⟨?_, h.owner id q w (Cell.lock_of_commit hlock).1⟩
    rintro rfl
    exact Cell.not_heldBy_commit (s.tenants.cell id) q ⟨_, hlock, rfl⟩
  · intro q id hshare
    obtain ⟨hold, hq⟩ := mem_released.mp hshare
    obtain ⟨hcall, hfree⟩ := h.shares q id hold
    refine ⟨hq, hcall, ?_⟩
    cases hlock : ((s.commit p).tenants.cell id).lock with
    | none => rfl
    | some l =>
        rw [(Cell.lock_of_commit hlock).1] at hfree
        cases hfree
  · intro kind key q w hlock
    rw [table_commit] at hlock
    refine ⟨?_, h.rowLock kind key q w (Cell.lock_of_commit hlock).1⟩
    rintro rfl
    exact Cell.not_heldBy_commit ((s.table kind).cell key) q ⟨_, hlock, rfl⟩

/-- A commit, once the rows are consistent again and the others stand. -/
theorem Agreed.commit (h : Agreed s calls) (hconsistent : Consistent (s.commit p))
    (hothers : ∀ q call, q ≠ p → calls q = some call → Stands (s.commit p) q call) :
    Agreed (s.commit p) (Function.update calls p (some .done)) := by
  obtain ⟨howner, hshares, hrowLock⟩ := h.commit_locks (p := p)
  refine ⟨hconsistent, fun id q w hlock => ?_, fun q id hshare => ?_, fun kind key q w hlock => ?_,
    fun q call hcall => ?_⟩
  · obtain ⟨hq, hcall⟩ := howner id q w hlock
    rw [Function.update_of_ne hq]
    exact hcall
  · obtain ⟨hq, hcall, hfree⟩ := hshares q id hshare
    rw [Function.update_of_ne hq]
    exact ⟨hcall, hfree⟩
  · obtain ⟨hq, hrow⟩ := hrowLock kind key q w hlock
    rw [Function.update_of_ne hq]
    exact hrow
  · by_cases hq : q = p
    · subst hq
      rw [Function.update_self] at hcall
      cases hcall
      exact trivial
    · rw [Function.update_of_ne hq] at hcall
      exact hothers q call hq hcall

/-- What the others rely on survives the commit of `p`, apart from snapshots. -/
theorem Agreed.stands_commit (h : Agreed s calls) {q : Nat} (hq : q ≠ p) (hcall : calls q = some k)
    (hrows : ∀ id w, (s.tenants.cell id).lock = some ⟨q, w⟩ → NoRows s id → NoRows (s.commit p) id)
    (hsnap : ∀ id data snap, k = .updateLock id data snap → Stands (s.commit p) q k) :
    Stands (s.commit p) q k := by
  have hcell {id : Id} {w : Option (Option Tenant)}
    (hlock : (s.tenants.cell id).lock = some ⟨q, w⟩) :
      (s.commit p).tenants.cell id = s.tenants.cell id := by
    refine Cell.commit_of_not_heldBy fun hp => hq ?_
    exact Cell.heldBy_unique ⟨_, hlock, rfl⟩ hp
  have hcode {id : Id} {code : String} (hshare : (q, id) ∈ s.shares) (hcode : CodeOf s id code) :
      (q, id) ∈ (s.commit p).shares ∧ CodeOf (s.commit p) id code := by
    have hfree := (h.shares q id hshare).2
    refine ⟨mem_released.mpr ⟨hshare, hq⟩, hcode.congr ?_⟩
    rw [tenantAt_commit, Cell.visible_of_lock_none hfree]
    rfl
  have hstands := h.stands q k hcall
  cases k with
  | updateLock id data snap => exact hsnap id data snap rfl
  | updateCount id data tenant snap =>
      obtain ⟨hlock, htenant, hnone, hreplaces⟩ := hstands
      refine ⟨?_, ?_, fun hzero => hrows id _ hlock (hnone hzero), hreplaces⟩
      · rw [hcell hlock]
        exact hlock
      · rw [TenantStore.tenantAt, hcell hlock]
        exact htenant
  | updateWrite id data tenant =>
      obtain ⟨hlock, htenant, hnone⟩ := hstands
      refine ⟨?_, ?_, fun hreplaces => hrows id _ hlock (hnone hreplaces)⟩
      · rw [hcell hlock]
        exact hlock
      · rw [TenantStore.tenantAt, hcell hlock]
        exact htenant
  | updateCommit id data tenant =>
      obtain ⟨hlock, htenant, hnone⟩ := hstands
      refine ⟨?_, ?_, fun hreplaces => hrows id _ hlock (hnone hreplaces)⟩
      · rw [hcell hlock]
        exact hlock
      · rw [TenantStore.tenantAt, hcell hlock]
        exact htenant
  | createRow kind row => exact hcode hstands.1 hstands.2
  | createItems kind row => exact hcode hstands.1 hstands.2
  | createCommit kind row => exact hcode hstands.1 hstands.2
  | _ => exact trivial

/-- An update that keeps the currency, or finds no order, may commit. -/
theorem Agreed.updateCommit (h : Agreed s calls) {id : Id} {data : UpdateTenant} {tenant : Tenant}
    (hk : calls p = some (.updateCommit id data tenant)) :
    Agreed (s.commit p) (Function.update calls p (some .done)) := by
  obtain ⟨hlock, htenant, hnone⟩ := h.stands p _ hk
  have hrowAt (kind : Kind) (key : Id × String) :
      (s.commit p).rowAt kind key = s.rowAt kind key := by
    rw [rowAt_commit]
    exact Cell.visible_of_not_heldBy (h.not_held_row hk (fun _ => nofun) kind key)
  have hother {i : Id} (hi : i ≠ id) : (s.commit p).tenants.cell i = s.tenants.cell i := by
    refine Cell.commit_of_not_heldBy ?_
    rintro ⟨⟨q, w⟩, hl, rfl⟩
    exact hi (h.owns_of_lock hk hl).symm
  refine h.commit ?_ ?_
  · intro kind key row hrow
    rw [hrowAt] at hrow
    obtain ⟨tenant', currency, htenant', hcurrency, hcode⟩ := h.consistent kind key row hrow
    by_cases hid : row.tenantId = id
    · rw [hid, htenant] at htenant'
      cases htenant'
      have hkeeps : ¬ data.replacesCurrency tenant = true := by
        intro hreplaces
        exact hnone hreplaces kind key row hrow hid
      refine ⟨data.apply tenant, currency, ?_, apply_currencyCode hcurrency hkeeps, hcode⟩
      rw [hid, tenantAt_commit, Cell.visible_of_write hlock]
    · refine ⟨tenant', currency, ?_, hcurrency, hcode⟩
      rw [TenantStore.tenantAt, hother hid]
      exact htenant'
  · intro q call hq hcall
    refine h.stands_commit hq hcall (fun _ _ _ hrows => hrows.congr hrowAt) ?_
    rintro i data' snap rfl
    obtain ⟨hle, hcurrent⟩ := h.stands q _ hcall
    by_cases hi : i = id
    · -- the version has moved on
      subst hi
      have hversion : ((s.commit p).tenants.cell i).version = (s.tenants.cell i).version + 1 := by
        show ((s.tenants.cell i).commit p).version = _
        unfold Cell.commit
        rw [hlock]
        exact congrArg Cell.version (if_pos rfl)
      refine ⟨?_, fun hsame => ?_⟩
      · rw [hversion]
        omega
      · rw [hversion] at hsame
        omega
    · show snap.version ≤ ((s.commit p).tenants.cell i).version ∧ _
      rw [hother hi]
      refine ⟨hle, fun hsame => ?_⟩
      obtain ⟨hat, hpasses⟩ := hcurrent hsame
      refine ⟨?_, fun hp => (hpasses hp).congr hrowAt⟩
      rw [TenantStore.tenantAt, hother hi]
      exact hat

/-- An order may be committed, unless an update that waits for the tenant has missed it. -/
theorem Agreed.createCommit (h : Agreed s calls) {kind : Kind} {row : FinancialRow}
    (hk : calls p = some (.createCommit kind row))
    (hcounted : ∀ q data snap, calls q = some (.updateLock row.tenantId data snap) →
      (s.tenants.cell row.tenantId).version = snap.version → ¬ snap.passes data) :
    Agreed (s.commit p) (Function.update calls p (some .done)) := by
  obtain ⟨hshare, hcode⟩ := h.stands p _ hk
  have hcell (id : Id) : (s.commit p).tenants.cell id = s.tenants.cell id :=
    Cell.commit_of_not_heldBy (h.not_held hk (fun _ => nofun) id)
  have htenantAt (id : Id) : (s.commit p).tenantAt id = s.tenantAt id :=
    congrArg Cell.committed (hcell id)
  have hrow {kind' : Kind} {key : Id × String} {row' : FinancialRow}
      (hrow' : (s.commit p).rowAt kind' key = some row') :
      s.rowAt kind' key = some row' ∨ row' = row := by
    rw [rowAt_commit] at hrow'
    by_cases hheld : ((s.table kind').cell key).heldBy p
    · obtain ⟨⟨q, w⟩, hlock, rfl⟩ := hheld
      obtain ⟨row'', rfl, hcall | hcall⟩ := h.row_of_lock hk hlock
      · cases hcall
      · cases hcall
        rw [Cell.visible_of_write hlock] at hrow'
        exact .inr (Option.some.inj hrow').symm
    · rw [Cell.visible_of_not_heldBy hheld] at hrow'
      exact .inl hrow'
  have hnoRows {id : Id} (hid : row.tenantId ≠ id) (hnone : NoRows s id) :
      NoRows (s.commit p) id := by
    intro kind' key row' hrow'
    obtain hold | rfl := hrow hrow'
    · exact hnone kind' key row' hold
    · exact hid
  refine h.commit ?_ ?_
  · intro kind' key row' hrow'
    obtain hold | rfl := hrow hrow'
    · exact (h.consistent kind' key row' hold).congr (htenantAt _)
    · exact hcode.congr (htenantAt _)
  · intro q call hq hcall
    refine h.stands_commit hq hcall (fun id w hlock hnone => hnoRows ?_ hnone) ?_
    · -- who owns a tenant keeps it from being shared
      rintro rfl
      rw [(h.shares p _ hshare).2] at hlock
      cases hlock
    · rintro id data snap rfl
      obtain ⟨hle, hcurrent⟩ := h.stands q _ hcall
      show snap.version ≤ ((s.commit p).tenants.cell id).version ∧ _
      rw [hcell]
      refine ⟨hle, fun hsame => ?_⟩
      obtain ⟨hat, hpasses⟩ := hcurrent hsame
      refine ⟨(htenantAt id).trans hat, fun hp => hnoRows ?_ (hpasses hp)⟩
      rintro rfl
      exact hcounted q data snap hcall hsame hp

/-- A transaction that creates an order commits while no update waits for its tenant that
replaces the currency and has counted nothing. -/
def CountsCurrent (w : World TenantStore TenantCall) : TenantEvent → Prop
  | .step p _ => ∀ kind row, w.at_ p = some (.createCommit kind row) →
      ∀ q data snap, w.at_ q = some (.updateLock row.tenantId data snap) →
        (w.store.tenants.cell row.tenantId).version = snap.version → ¬ snap.passes data
  | _ => True

theorem Agreed.next (h : Agreed s calls) (hk : calls p = some k)
    (hcounted : ∀ kind row, k = .createCommit kind row → ∀ q data snap,
      calls q = some (.updateLock row.tenantId data snap) →
        (s.tenants.cell row.tenantId).version = snap.version → ¬ snap.passes data) :
    Agreed (k.next p s).2 (Function.update calls p (some (k.next p s).1)) := by
  cases k with
  | updateBegin id data => exact h.updateBegin hk
  | updateLock id data snap => exact h.updateLock hk
  | updateCount id data tenant snap => exact h.updateCount hk
  | updateWrite id data tenant => exact h.updateWrite hk
  | updateCommit id data tenant => exact h.updateCommit hk
  | createShare kind tenantId number => exact h.createShare hk
  | createRow kind row => exact h.createRow hk
  | createItems kind row =>
      have hstands : Stands s p (.createItems kind row) := h.stands p _ hk
      refine h.stay hk (fun _ hid => hid.elim) (fun _ hid => hid) ?_ hstands
      rintro kind' row' (hcall | hcall)
      · cases hcall
        exact .inr rfl
      · cases hcall
  | createCommit kind row => exact h.createCommit hk (hcounted kind row rfl)
  | done => exact System.stop_keeps h hk
  | rejected => exact System.stop_keeps h hk
  | stopped => exact System.stop_keeps h hk

theorem Agreed.spawn (h : Agreed s calls) (hp : calls p = none) (request : TenantRequest) :
    Agreed s (Function.update calls p (some request.start)) := by
  refine h.move (Kept.refl s p) ?_ ?_ ?_ ?_
  · intro id w hlock
    obtain ⟨k, hk, -⟩ := h.owner id p w hlock
    rw [hp] at hk
    cases hk
  · intro id hshare
    obtain ⟨⟨k, hk, -⟩, -⟩ := h.shares p id hshare
    rw [hp] at hk
    cases hk
  · intro kind key q w hlock
    refine .inr ⟨?_, hlock⟩
    rintro rfl
    obtain ⟨row, -, hk | hk⟩ := h.rowLock kind key q w hlock
    · rw [hp] at hk
      cases hk
    · rw [hp] at hk
      cases hk
  · cases request with
    | update id data => exact trivial
    | create kind tenantId number => exact trivial

/-- A database in which no transaction is open. -/
def opening (tenants : List Tenant) (salesOrders purchaseOrders : List FinancialRow)
    (payments : List Id) : TenantStore where
  tenants := .stored Tenant.id tenants
  shares := []
  salesOrders := .stored FinancialRow.key salesOrders
  purchaseOrders := .stored FinancialRow.key purchaseOrders
  payments := payments

theorem opening_agreed {tenants : List Tenant} {salesOrders purchaseOrders : List FinancialRow}
    {payments : List Id} (h : Consistent (opening tenants salesOrders purchaseOrders payments)) :
    Agreed (opening tenants salesOrders purchaseOrders payments) fun _ => none where
  consistent := h
  owner := fun _ _ _ hlock => nomatch hlock
  shares := fun _ _ hshare => absurd hshare List.not_mem_nil
  rowLock := by
    intro kind key q w hlock
    cases kind with
    | salesOrder => cases hlock
    | purchaseOrder => cases hlock
  stands := fun _ _ hcall => nomatch hcall

/-- In every run whose orders are committed while no update has missed them, every order and
purchase order has the currency of its tenant. -/
theorem currency_kept (tenants : List Tenant) (salesOrders purchaseOrders : List FinancialRow)
    (payments : List Id) (hstart : Consistent (opening tenants salesOrders purchaseOrders payments))
    (es : List TenantEvent)
    (hok : tenantCalls.Follows CountsCurrent
      (.idle (opening tenants salesOrders purchaseOrders payments)) es) :
    Consistent (tenantCalls.run (.idle (opening tenants salesOrders purchaseOrders payments))
      es).store := by
  have hrun := tenantCalls.follows_invariant (I := fun w => Agreed w.store w.at_) ?_ es hok
    (opening_agreed hstart)
  · exact hrun.consistent
  · intro w e hw hok
    obtain ⟨p, r, -, hp, hstore, hat⟩ | ⟨p, c, k, rfl, -, hk, hstore, hat⟩ | ⟨o, -⟩ |
      ⟨p, k, -, -, hstore, hat⟩ | ⟨hstore, hat⟩ := tenantCalls.exec_cases w e
    · rw [hstore, hat]
      exact hw.spawn hp r
    · rw [hstore, hat]
      refine hw.next hk fun kind row hrow => ?_
      subst hrow
      exact hok kind row hk
    · cases o
    · rw [hstore, hat]
      exact hw.rollback trivial
    · rw [hstore, hat]
      exact hw

/-- While one call runs alone no update waits. -/
theorem follows_alone (cs : List Unit) :
    ∀ {w : World TenantStore TenantCall}, (∀ q, q ≠ p → w.at_ q = none) →
      tenantCalls.Follows CountsCurrent w (cs.map (.step p)) := by
  induction cs with
  | nil => exact fun _ => trivial
  | cons c rest ih =>
      intro w halone
      refine ⟨?_, ih fun q hq => ?_⟩
      · intro kind row hk q data snap hcall
        by_cases hq : q = p
        · subst hq
          rw [hk] at hcall
          cases hcall
        · rw [halone q hq] at hcall
          cases hcall
      · rw [tenantCalls.step_at_of_ne w hq]
        exact halone q hq

def usd : CurrencyCode := ⟨"USD", by decide +kernel, by decide +kernel⟩

def eur : CurrencyCode := ⟨"EUR", by decide +kernel, by decide +kernel⟩

/-- A tenant with a base currency and without orders. -/
def withoutOrders : TenantStore := opening [⟨1, "t", .cafe, some usd, none⟩] [] [] []

theorem withoutOrders_consistent : Consistent withoutOrders := by
  intro kind key row hrow
  cases kind with
  | salesOrder => cases hrow
  | purchaseOrder => cases hrow

/-- An order is created. -/
def createOne : List TenantEvent :=
  .spawn 0 (createOrder 1 "A") :: (List.replicate 4 ()).map (.step 0)

theorem currency_kept_example :
    (tenantCalls.run (.idle withoutOrders) createOne).store.rowAt .salesOrder (1, "A") =
        some ⟨1, "A", "USD"⟩ ∧
      Consistent (tenantCalls.run (.idle withoutOrders) createOne).store := by
  refine ⟨by decide +kernel, currency_kept _ [] [] [] withoutOrders_consistent createOne ?_⟩
  refine ⟨trivial, follows_alone (List.replicate 4 ()) fun q hq => ?_⟩
  exact tenantCalls.spawn_at_of_ne (.idle withoutOrders) hq (createOrder 1 "A")

/-- The order holds the tenant shared when the update takes its snapshot and waits for it; the
order is committed, and the update counts in its snapshot. -/
def updateAcrossOrder : List TenantEvent :=
  [.spawn 0 (createOrder 1 "A"), .step 0 (), .step 0 (),
    .spawn 1 (.update 1 ⟨none, none, some eur⟩), .step 1 (), .step 1 (),
    .step 0 (), .step 0 (), .step 1 (), .step 1 (), .step 1 (), .step 1 ()]

/-- Both are done; the order has the old currency and the tenant the new one. -/
theorem currency_changed_after_order :
    let w := tenantCalls.run (.idle withoutOrders) updateAcrossOrder
    w.at_ 0 = some .done ∧ w.at_ 1 = some .done ∧
      w.store.rowAt .salesOrder (1, "A") = some ⟨1, "A", "USD"⟩ ∧
      (w.store.tenantAt 1).map Tenant.currencyCode = some (some eur) := by
  decide +kernel

end Tenants
end ERP
