import ERP.Auth.Effects

/-!
# The outlets of sessions and tokens

`login`, `refresh` and `switchOutlet` read an outlet of the user and write it into a session
and a token later.  `setUserOutlets` drops assignments and then clears the rows that name one
of them.  The rows of both tables are placed alike: what a row needs is said once, for any
table of rows that name an outlet.
-/

namespace ERP
namespace Auth

open Lib

abbrev OutletRows := LockedTable (Id × Id) UserOutlet

def AuthStore.rowAt (s : AuthStore) (k : Id × Id) : Option UserOutlet :=
  (s.userOutlets.cell k).committed

/-- `setUserOutlets` has not come to the session. -/
def AuthCall.reachesSession (j : Id) : AuthCall → Bool
  | .outletsDeleteRows .. | .outletsFind .. | .outletsRestore .. | .outletsCreate .. => true
  | .outletsSessions _ => true
  | .outletsSessionRows _ keys => j ∈ keys
  | _ => false

/-- `setUserOutlets` has not come to the token. -/
def AuthCall.reachesToken (j : Id) : AuthCall → Bool
  | .outletsDeleteRows .. | .outletsFind .. | .outletsRestore .. | .outletsCreate .. => true
  | .outletsSessions _ | .outletsSessionRows .. | .outletsTokens _ => true
  | .outletsTokenRows _ keys => j ∈ keys
  | _ => false

/-- The transaction of `setUserOutlets` for the request; its commit may be of any. -/
def AuthCall.sets (r : OutletsRequest) : AuthCall → Prop
  | .outletsDeleteRows r' _ | .outletsFind r' _ | .outletsRestore r' _ _ => r' = r
  | .outletsCreate r' _ _ | .outletsSessions r' | .outletsSessionRows r' _ => r' = r
  | .outletsTokens r' | .outletsTokenRows r' _ => r' = r
  | .outletsCommit => True
  | _ => False

theorem setting_of_sets {k : AuthCall} {r : OutletsRequest} (h : k.sets r) : k.setting = true := by
  cases k with
  | outletsDeleteRows r' keys => rfl
  | outletsFind r' todo => rfl
  | outletsRestore r' id todo => rfl
  | outletsCreate r' id todo => rfl
  | outletsSessions r' => rfl
  | outletsSessionRows r' keys => rfl
  | outletsTokens r' => rfl
  | outletsTokenRows r' keys => rfl
  | outletsCommit => rfl
  | _ => cases h

/-- The outlet has been assigned to the user in the tenant. -/
def Known (u : OutletRows) (userId tenantId : Id) (outletId : Option Id) : Prop :=
  ∀ id, outletId = some id → ∃ row, (u.cell (userId, id)).committed = some row ∧
    row.tenantId = tenantId

def Assigned (u : OutletRows) (userId tenantId id : Id) : Prop :=
  ∃ row, (u.cell (userId, id)).committed = some row ∧ row.tenantId = tenantId ∧
    row.deletedAt = none

/-- Call `q` has dropped the assignment and not committed yet. -/
def Drops (u : OutletRows) (q : Nat) (userId id : Id) : Prop :=
  ∃ row, (u.cell (userId, id)).lock = some ⟨q, some (some row)⟩ ∧ row.deletedAt ≠ none

/-- What `setUserOutlets` has written to an assignment that it holds. -/
def RowWrite (u : OutletRows) (call : AuthCall) (k : Id × Id) (w : Option (Option UserOutlet)) :
    Prop :=
  ∃ r row, call.sets r ∧ w = some (some row) ∧ (row.userId, row.outletId) = k ∧
    row.userId = r.userId ∧ row.tenantId = r.tenantId ∧
    (∀ old, (u.cell k).committed = some old → old.tenantId = r.tenantId) ∧
    (row.deletedAt ≠ none → row.outletId ∉ r.outletIds)

/-- Rows that name an outlet of their user, and which calls change them how. -/
structure Places (V : Type) where
  userId : V → Id
  tenantId : V → Id
  outletId : V → Option Id
  isOpen : V → Bool
  reaches : Id → AuthCall → Bool
  granted : AuthCall → Id → V → Prop

def sessionPlaces : Places Session where
  userId := Session.userId
  tenantId := Session.tenantId
  outletId := Session.outletId
  isOpen := fun row => row.deletedAt = none
  reaches := AuthCall.reachesSession
  granted := fun call j row =>
    ∃ r old sessionId, (call = .rotateInsert r old sessionId ∨
      call = .rotateCommit r old sessionId) ∧
      sessionId = j ∧ row.userId = r.userId ∧ row.tenantId = r.tenantId ∧
      row.outletId = r.outlet old

def tokenPlaces : Places RefreshToken where
  userId := RefreshToken.userId
  tenantId := RefreshToken.tenantId
  outletId := RefreshToken.outletId
  isOpen := fun row => row.revokedAt = none
  reaches := AuthCall.reachesToken
  granted := fun call j row =>
    ∃ r old sessionId, call = .rotateCommit r old sessionId ∧ r.newSelector = j ∧
      row = r.newToken old sessionId

variable {V : Type} {P : Places V} {u u' : OutletRows} {t t' : LockedTable Id V}
  {calls : Nat → Option AuthCall} {p : Nat} {k k' : AuthCall}

/-- What a lock on a row has written: `setUserOutlets` clears the outlet, a rotation places
one, and what any other call has written does not count any more. -/
def Pending (P : Places V) (call : AuthCall) (j : Id) (w : Option (Option V)) : Prop :=
  ∃ row, w = some (some row) ∧ (call.setting = true → P.outletId row = none) ∧
    (call.setting = false → P.isOpen row = true → P.granted call j row)

/-- The outlet is assigned, and a call that drops it has the row ahead or holds it. -/
def Safe (P : Places V) (u : OutletRows) (t : LockedTable Id V) (calls : Nat → Option AuthCall)
    (j : Id) (row : V) : Prop :=
  ∀ id, P.outletId row = some id → Assigned u (P.userId row) (P.tenantId row) id ∧
    ∀ q call, calls q = some call → Drops u q (P.userId row) id →
      P.reaches j call = true ∨ (t.cell j).heldBy q

structure PlacedIn (P : Places V) (u : OutletRows) (t : LockedTable Id V)
    (calls : Nat → Option AuthCall) : Prop where
  safe : ∀ j row, (t.cell j).committed = some row → P.isOpen row = true → Safe P u t calls j row
  lock : ∀ j q w, (t.cell j).lock = some ⟨q, w⟩ → ∃ call, calls q = some call ∧ Pending P call j w

/-- A step of `p` that commits nothing in the table. -/
structure Moved (P : Places V) (t t' : LockedTable Id V) (p : Nat) (k' : AuthCall) : Prop where
  committed : ∀ j, (t'.cell j).committed = (t.cell j).committed
  held : ∀ j q, q ≠ p → (t.cell j).heldBy q → (t'.cell j).heldBy q
  lock : ∀ j q w, (t'.cell j).lock = some ⟨q, w⟩ →
    q = p ∧ Pending P k' j w ∨ q ≠ p ∧ (t.cell j).lock = some ⟨q, w⟩

/-- What the state of a call in a transaction says of its locks, the next says too. -/
theorem Pending.next {j : Id} {w : Option (Option V)} (h : Pending P k j w)
    (hsetting : k'.setting = k.setting) (hgranted : ∀ row, P.granted k j row → P.granted k' j row) :
    Pending P k' j w := by
  obtain ⟨row, hw, hclear, hgrant⟩ := h
  refine ⟨row, hw, ?_, ?_⟩
  · rw [hsetting]
    exact hclear
  · rw [hsetting]
    exact fun hs hopen => hgranted row (hgrant hs hopen)

theorem PlacedIn.pending (h : PlacedIn P u t calls) (hk : calls p = some k) {j : Id}
    {w : Option (Option V)} (hlock : (t.cell j).lock = some ⟨p, w⟩) : Pending P k j w := by
  obtain ⟨call, hcall, hpending⟩ := h.lock j p w hlock
  rw [hk] at hcall
  cases hcall
  exact hpending

theorem Moved.same (hlocks : ∀ j w, (t.cell j).lock = some ⟨p, w⟩ → Pending P k' j w) :
    Moved P t t p k' where
  committed := fun _ => rfl
  held := fun _ _ _ hheld => hheld
  lock := by
    intro j q w hlock
    by_cases hq : q = p
    · subst hq
      exact .inl ⟨rfl, hlocks j w hlock⟩
    · exact .inr ⟨hq, hlock⟩

theorem Moved.write {j : Id} {row : V} (havailable : (t.cell j).available p = true)
    (hrow : Pending P k' j (some (some row)))
    (hlocks : ∀ j w, (t.cell j).lock = some ⟨p, w⟩ → Pending P k' j w) :
    Moved P t (t.set j ((t.cell j).write p (some row))) p k' where
  committed := by
    intro i
    exact LockedTable.set_cell_cases (P := fun c => c.committed = (t.cell i).committed)
      (fun hi => by rw [Cell.write_committed, hi]) fun _ => rfl
  held := by
    intro i q hq hheld
    have hi : i ≠ j := by
      rintro rfl
      exact hq (Cell.not_heldBy_of_available havailable hheld)
    rw [LockedTable.set_cell_of_ne hi]
    exact hheld
  lock := by
    intro i q w hlock
    by_cases hi : i = j
    · subst hi
      rw [LockedTable.set_cell_self] at hlock
      cases hlock
      exact .inl ⟨rfl, hrow⟩
    · rw [LockedTable.set_cell_of_ne hi] at hlock
      by_cases hq : q = p
      · subst hq
        exact .inl ⟨rfl, hlocks i w hlock⟩
      · exact .inr ⟨hq, hlock⟩

theorem Moved.rollback (P : Places V) (t : LockedTable Id V) (p : Nat) (k' : AuthCall) :
    Moved P t (t.rollback p) p k' where
  committed := fun j => Cell.release_committed (t.cell j) p
  held := by
    intro j q hq hheld
    have hp : ¬ (t.cell j).heldBy p := fun hp => hq (Cell.heldBy_unique hheld hp)
    rw [LockedTable.rollback_cell, Cell.release_of_not_heldBy hp]
    exact hheld
  lock := by
    intro j q w hlock
    refine .inr ⟨?_, Cell.lock_of_release hlock⟩
    rintro rfl
    exact Cell.not_heldBy_release (t.cell j) q ⟨_, hlock, rfl⟩

/-- The rows stay safe when `p` moves on, if those that `p` drops from are ahead of it or
held by it. -/
theorem PlacedIn.move (h : PlacedIn P u t calls) (hmoved : Moved P t t' p k')
    (hcommitted : ∀ i, (u'.cell i).committed = (u.cell i).committed)
    (hdrops : ∀ q userId id, q ≠ p → Drops u' q userId id → Drops u q userId id)
    (hown : ∀ j row id, (t.cell j).committed = some row → P.isOpen row = true →
      P.outletId row = some id → Drops u' p (P.userId row) id →
      P.reaches j k' = true ∨ (t'.cell j).heldBy p) :
    PlacedIn P u' t' (Function.update calls p (some k')) where
  safe := by
    intro j row hrow hopen id hid
    rw [hmoved.committed] at hrow
    obtain ⟨hassigned, hothers⟩ := h.safe j row hrow hopen id hid
    constructor
    · obtain ⟨assignment, hassignment, hcolumns⟩ := hassigned
      exact ⟨assignment, (hcommitted _).trans hassignment, hcolumns⟩
    · intro q call hcall hdrop
      by_cases hq : q = p
      · subst hq
        rw [Function.update_self] at hcall
        cases hcall
        exact hown j row id hrow hopen hid hdrop
      · rw [Function.update_of_ne hq] at hcall
        obtain hreaches | hheld := hothers q call hcall (hdrops q _ id hq hdrop)
        · exact .inl hreaches
        · exact .inr (hmoved.held j q hq hheld)
  lock := by
    intro j q w hlock
    obtain ⟨rfl, hpending⟩ | ⟨hq, hlock⟩ := hmoved.lock j q w hlock
    · exact ⟨k', Function.update_self .., hpending⟩
    · rw [Function.update_of_ne hq]
      exact h.lock j q w hlock

/-- An assignment that `p` has not dropped is there after the commit of `p`. -/
theorem Assigned.commit {userId tenantId id : Id} (h : Assigned u userId tenantId id)
    (hrows : ∀ i w, (u.cell i).lock = some ⟨p, w⟩ → RowWrite u k i w)
    (hdrops : ¬ Drops u p userId id) : Assigned (u.commit p) userId tenantId id := by
  obtain ⟨row, hrow, htenant, hlive⟩ := h
  have hcommitted : ((u.commit p).cell (userId, id)).committed = (u.cell (userId, id)).visible p :=
    Cell.commit_committed _ p
  by_cases hheld : (u.cell (userId, id)).heldBy p
  · obtain ⟨⟨q, w⟩, hlock, rfl⟩ := hheld
    obtain ⟨r, row', -, rfl, -, -, htenant', hold, -⟩ := hrows _ w hlock
    rw [Cell.visible_of_write hlock] at hcommitted
    refine ⟨row', hcommitted, ?_, ?_⟩
    · rw [htenant', ← hold row hrow]
      exact htenant
    · by_contra hdeleted
      exact hdrops ⟨row', hlock, hdeleted⟩
  · rw [Cell.visible_of_not_heldBy hheld] at hcommitted
    exact ⟨row, hcommitted.trans hrow, htenant, hlive⟩

theorem Drops.of_commit {q : Nat} {userId id : Id} (h : Drops (u.commit p) q userId id) :
    q ≠ p ∧ Drops u q userId id := by
  obtain ⟨row, hlock, hdeleted⟩ := h
  refine ⟨?_, row, (Cell.lock_of_commit hlock).1, hdeleted⟩
  rintro rfl
  exact Cell.not_heldBy_commit (u.cell (userId, id)) q ⟨_, hlock, rfl⟩

theorem Drops.of_rollback {q : Nat} {userId id : Id} (h : Drops (u.rollback p) q userId id) :
    q ≠ p ∧ Drops u q userId id := by
  obtain ⟨row, hlock, hdeleted⟩ := h
  refine ⟨?_, row, Cell.lock_of_release hlock, hdeleted⟩
  rintro rfl
  exact Cell.not_heldBy_release (u.cell (userId, id)) q ⟨_, hlock, rfl⟩

/-- Where a call places an outlet: it is assigned, and a call that drops it has the row
ahead. -/
def Offered (u : OutletRows) (calls : Nat → Option AuthCall) (userId : Id) (outletId : Option Id)
    (reaches : AuthCall → Bool) : Prop :=
  ∀ id, outletId = some id →
    (∃ row, (u.cell (userId, id)).committed = some row ∧ row.deletedAt = none) ∧
    ∀ q call, calls q = some call → Drops u q userId id → reaches call = true

/-- A commit of `p` keeps the rows safe, if the outlets that it places were offered. -/
theorem PlacedIn.commit (h : PlacedIn P u t calls) (hk : calls p = some k)
    (hrows : ∀ i w, (u.cell i).lock = some ⟨p, w⟩ → RowWrite u k i w)
    (hend : ∀ j, P.reaches j k = false)
    (hgranted : k.setting = false → ∀ j row, P.granted k j row → P.isOpen row = true →
      Known u (P.userId row) (P.tenantId row) (P.outletId row) ∧
      Offered u calls (P.userId row) (P.outletId row) (P.reaches j)) :
    PlacedIn P (u.commit p) (t.commit p) (Function.update calls p (some k')) where
  safe := by
    intro j row hrow hopen id hid
    have hcommitted : (t.cell j).visible p = some row := by
      rw [← Cell.commit_committed]
      exact hrow
    by_cases hheld : (t.cell j).heldBy p
    · obtain ⟨⟨q, w⟩, hlock, rfl⟩ := hheld
      obtain ⟨row', rfl, hclear, hgrant⟩ := h.pending hk hlock
      rw [Cell.visible_of_write hlock] at hcommitted
      cases hcommitted
      cases hsetting : k.setting with
      | true =>
          rw [hclear hsetting] at hid
          cases hid
      | false =>
          obtain ⟨hknown, hoffered⟩ := hgranted hsetting j row (hgrant hsetting hopen) hopen
          obtain ⟨⟨assignment, hassignment, hlive⟩, hothers⟩ := hoffered id hid
          obtain ⟨assignment', hassignment', htenant⟩ := hknown id hid
          rw [hassignment] at hassignment'
          cases hassignment'
          have hnone (i : Id × Id) (w : Option (Option UserOutlet)) :
              (u.cell i).lock ≠ some ⟨q, w⟩ := by
            intro hl
            obtain ⟨r, -, hsets, -⟩ := hrows i w hl
            rw [setting_of_sets hsets] at hsetting
            cases hsetting
          refine ⟨Assigned.commit ⟨assignment, hassignment, htenant, hlive⟩ hrows ?_, ?_⟩
          · rintro ⟨dropped, hl, -⟩
            exact hnone _ _ hl
          · intro i call hcall hdrop
            obtain ⟨hi, hdrop⟩ := hdrop.of_commit
            rw [Function.update_of_ne hi] at hcall
            exact .inl (hothers i call hcall hdrop)
    · rw [Cell.visible_of_not_heldBy hheld] at hcommitted
      obtain ⟨hassigned, hothers⟩ := h.safe j row hcommitted hopen id hid
      constructor
      · refine hassigned.commit hrows fun hdrop => ?_
        obtain hreaches | hp := hothers p k hk hdrop
        · rw [hend j] at hreaches
          cases hreaches
        · exact hheld hp
      · intro q call hcall hdrop
        obtain ⟨hq, hdrop⟩ := hdrop.of_commit
        rw [Function.update_of_ne hq] at hcall
        obtain hreaches | hqheld := hothers q call hcall hdrop
        · exact .inl hreaches
        · refine .inr ?_
          rw [LockedTable.commit_cell, Cell.commit_of_not_heldBy hheld]
          exact hqheld
  lock := by
    intro j q w hlock
    have hq : q ≠ p := by
      rintro rfl
      exact Cell.not_heldBy_commit (t.cell j) q ⟨_, hlock, rfl⟩
    rw [Function.update_of_ne hq]
    exact h.lock j q w (Cell.lock_of_commit hlock).1

/-- A call that holds nothing inserts a row, of which the outlet was offered. -/
theorem PlacedIn.insert (h : PlacedIn P u t calls) (hfree : ∀ j, ¬ (t.cell j).heldBy p) {j : Id}
    {row : V} (hrows : ∀ i, ¬ (u.cell i).heldBy p)
    (hknown : Known u (P.userId row) (P.tenantId row) (P.outletId row))
    (hoffered : Offered u calls (P.userId row) (P.outletId row) (P.reaches j)) :
    PlacedIn P u ((t.set j ((t.cell j).write p (some row))).commit p)
      (Function.update calls p (some k')) := by
  have hcell (i : Id) : ((t.set j ((t.cell j).write p (some row))).commit p).cell i =
      if i = j then ⟨some row, (t.cell j).version + 1, none⟩ else t.cell i := by
    by_cases hi : i = j
    · subst hi
      rw [LockedTable.commit_cell, LockedTable.set_cell_self, if_pos rfl]
      exact if_pos rfl
    · rw [LockedTable.commit_cell, LockedTable.set_cell_of_ne hi, if_neg hi,
        Cell.commit_of_not_heldBy (hfree i)]
  have hnotDrops {userId id : Id} : ¬ Drops u p userId id := by
    rintro ⟨dropped, hlock, -⟩
    exact hrows _ ⟨_, hlock, rfl⟩
  constructor
  · intro i row' hrow' hopen id hid
    rw [hcell] at hrow'
    by_cases hi : i = j
    · rw [if_pos hi] at hrow'
      cases hrow'
      obtain ⟨⟨assignment, hassignment, hlive⟩, hothers⟩ := hoffered id hid
      obtain ⟨assignment', hassignment', htenant⟩ := hknown id hid
      rw [hassignment] at hassignment'
      cases hassignment'
      refine ⟨⟨assignment, hassignment, htenant, hlive⟩, fun q call hcall hdrop => ?_⟩
      by_cases hq : q = p
      · subst hq
        exact absurd hdrop hnotDrops
      · rw [Function.update_of_ne hq] at hcall
        rw [hi]
        exact .inl (hothers q call hcall hdrop)
    · rw [if_neg hi] at hrow'
      obtain ⟨hassigned, hothers⟩ := h.safe i row' hrow' hopen id hid
      refine ⟨hassigned, fun q call hcall hdrop => ?_⟩
      by_cases hq : q = p
      · subst hq
        exact absurd hdrop hnotDrops
      · rw [Function.update_of_ne hq] at hcall
        rw [hcell, if_neg hi]
        exact hothers q call hcall hdrop
  · intro i q w hlock
    rw [hcell] at hlock
    by_cases hi : i = j
    · rw [if_pos hi] at hlock
      cases hlock
    · rw [if_neg hi] at hlock
      have hq : q ≠ p := by
        rintro rfl
        exact hfree i ⟨_, hlock, rfl⟩
      rw [Function.update_of_ne hq]
      exact h.lock i q w hlock

end Auth
end ERP
