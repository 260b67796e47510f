import ERP.Auth.Effects

/-!
# Refresh tokens under concurrent rotations

A rotation revokes its token, touches its session and inserts the new token under row
locks that it keeps to its commit.  Every other write of a token or a session is to a row
that is there, and revokes a token, deletes a session or changes an outlet.
-/

namespace ERP
namespace Auth

open Lib

/-- What a lock on a token has written: a change to a row that is not revoked, or the token
that a rotation is about to commit. -/
inductive TokenWrite (s : AuthStore) (call : Option AuthCall) (k : Id) :
    Option (Option RefreshToken) → Prop
  | update {row row' : RefreshToken} (h : s.tokenAt k = some row) (hopen : row.revokedAt = none)
      (hsame : SameToken row row') : TokenWrite s call k (some (some row'))
  | insert {r : Rotation} {row : RefreshToken} {sessionId : Id} (h : s.tokenAt k = none)
      (hcall : call = some (.rotateCommit r row sessionId)) (hk : r.newSelector = k) :
      TokenWrite s call k (some (some (r.newToken row sessionId)))

/-- `p` holds the token that it rotates, and has revoked it. -/
def Consumed (s : AuthStore) (p : Nat) (r : Rotation) (row : RefreshToken)
    (sessionId : Id) : Prop :=
  row.tokenSelector = r.oldTokenSelector ∧ ∃ found revoked,
    (s.tokens.cell r.oldTokenSelector).lock = some ⟨p, some (some revoked)⟩ ∧
    s.tokenAt r.oldTokenSelector = some found ∧ found.revokedAt = none ∧
    found.sessionId = some sessionId ∧ revoked.revokedAt ≠ none

/-- `p` holds the session, which is not deleted. -/
def Touched (s : AuthStore) (p : Nat) (sessionId : Id) : Prop :=
  (s.sessions.cell sessionId).heldBy p ∧
    ∃ session, s.sessionAt sessionId = some session ∧ session.deletedAt = none

/-- What a lock on a session has written. -/
def SessionWrite (s : AuthStore) (k : Id) (w : Option (Option Session)) : Prop :=
  ∃ session session', s.sessionAt k = some session ∧ session.deletedAt = none ∧
    w = some (some session')

def Stands (s : AuthStore) (p : Nat) : AuthCall → Prop
  | .rotateConsume r row sessionId => row.tokenSelector = r.oldTokenSelector ∧
      ∃ found, s.tokenAt r.oldTokenSelector = some found ∧ found.sessionId = some sessionId
  | .rotateSession r row sessionId => Consumed s p r row sessionId
  | .rotateInsert r row sessionId => Consumed s p r row sessionId ∧ Touched s p sessionId
  | .rotateCommit r row sessionId => Consumed s p r row sessionId ∧ Touched s p sessionId
  | _ => True

/-- A login whose session has no token yet. -/
def Waits (s : AuthStore) (fresh : Fresh) : Prop :=
  s.sessionAt fresh.sessionId ≠ none ∧
    ∀ k row, s.tokenAt k = some row → row.sessionId ≠ some fresh.sessionId

/-- Rotation in the committed rows: a rotated token is revoked and has one successor, and
a session has one token that is not revoked. -/
structure Linked (s : AuthStore) : Prop where
  selector : ∀ k row, s.tokenAt k = some row → row.tokenSelector = k
  predecessor : ∀ k row old, s.tokenAt k = some row → row.rotatedFromId = some old →
    ∃ oldRow, s.tokenAt old = some oldRow ∧ oldRow.revokedAt ≠ none
  successor : ∀ j k row row' old, s.tokenAt j = some row → s.tokenAt k = some row' →
    row.rotatedFromId = some old → row'.rotatedFromId = some old → j = k
  single : ∀ j k row row' sessionId, s.tokenAt j = some row → s.tokenAt k = some row' →
    row.revokedAt = none → row'.revokedAt = none → row.sessionId = some sessionId →
    row'.sessionId = some sessionId → j = k
  session : ∀ k row sessionId, s.tokenAt k = some row → row.sessionId = some sessionId →
    s.sessionAt sessionId ≠ none

/-- What holds between any two steps. -/
structure Chained (s : AuthStore) (calls : Nat → Option AuthCall) : Prop extends Linked s where
  tokenLock : ∀ k p w, (s.tokens.cell k).lock = some ⟨p, w⟩ →
    (∃ call, calls p = some call ∧ call.inTransaction = true) ∧ TokenWrite s (calls p) k w
  sessionLock : ∀ k p w, (s.sessions.cell k).lock = some ⟨p, w⟩ →
    (∃ call, calls p = some call ∧ call.inTransaction = true) ∧ SessionWrite s k w
  stands : ∀ p call, calls p = some call → Stands s p call
  waits : ∀ p user outletId fresh, calls p = some (.loginToken user outletId fresh) →
    Waits s fresh
  logins : ∀ p q user user' outletId outletId' fresh fresh',
    calls p = some (.loginToken user outletId fresh) →
    calls q = some (.loginToken user' outletId' fresh') →
    fresh.sessionId = fresh'.sessionId → p = q

variable {s s' : AuthStore} {calls : Nat → Option AuthCall} {p : Nat} {k k' : AuthCall}

/-- A call outside its transaction holds nothing. -/
theorem Chained.free (h : Chained s calls) (hk : calls p = some k) (htx : k.inTransaction = false) :
    (∀ j, ¬ (s.tokens.cell j).heldBy p) ∧ ∀ j, ¬ (s.sessions.cell j).heldBy p := by
  constructor
  · rintro j ⟨⟨q, w⟩, hl, rfl⟩
    obtain ⟨⟨call, hcall, hin⟩, -⟩ := h.tokenLock j _ w hl
    rw [hk] at hcall
    cases hcall
    rw [htx] at hin
    cases hin
  · rintro j ⟨⟨q, w⟩, hl, rfl⟩
    obtain ⟨⟨call, hcall, hin⟩, -⟩ := h.sessionLock j _ w hl
    rw [hk] at hcall
    cases hcall
    rw [htx] at hin
    cases hin

theorem Chained.visible_token (h : Chained s calls) (hk : calls p = some k)
    (htx : k.inTransaction = false) (j : Id) : (s.tokens.cell j).visible p = s.tokenAt j :=
  Cell.visible_of_not_heldBy ((h.free hk htx).1 j)

/-- The rows are there still, and those that `p` holds are as they were. -/
structure Kept (s s' : AuthStore) (p : Nat) : Prop where
  rows : ∀ j row, s.tokenAt j = some row → ∃ row', s'.tokenAt j = some row' ∧ SameToken row row'
  tokens : ∀ j, (s.tokens.cell j).heldBy p → s'.tokens.cell j = s.tokens.cell j
  sessions : ∀ j, (s.sessions.cell j).heldBy p → s'.sessions.cell j = s.sessions.cell j

theorem Consumed.kept {r : Rotation} {row : RefreshToken} {sessionId : Id}
    (h : Consumed s p r row sessionId) (hkept : Kept s s' p) : Consumed s' p r row sessionId := by
  obtain ⟨hselector, found, revoked, hlock, hfound, hopen, hsession, hrevoked⟩ := h
  have hcell := hkept.tokens r.oldTokenSelector ⟨_, hlock, rfl⟩
  refine ⟨hselector, found, revoked, ?_, ?_, hopen, hsession, hrevoked⟩
  · rw [hcell]
    exact hlock
  · rw [AuthStore.tokenAt, hcell]
    exact hfound

theorem Touched.kept {sessionId : Id} (h : Touched s p sessionId) (hkept : Kept s s' p) :
    Touched s' p sessionId := by
  obtain ⟨hheld, session, hsession, hlive⟩ := h
  have hcell := hkept.sessions sessionId hheld
  refine ⟨?_, session, ?_, hlive⟩
  · rw [hcell]
    exact hheld
  · rw [AuthStore.sessionAt, hcell]
    exact hsession

theorem Stands.kept (h : Stands s p k) (hkept : Kept s s' p) : Stands s' p k := by
  cases k with
  | rotateConsume r row sessionId =>
      obtain ⟨hselector, found, hfound, hsession⟩ := h
      obtain ⟨found', hfound', hsame⟩ := hkept.rows _ found hfound
      exact ⟨hselector, found', hfound', hsame.session.trans hsession⟩
  | rotateSession r row sessionId => exact Consumed.kept h hkept
  | rotateInsert r row sessionId => exact ⟨h.1.kept hkept, h.2.kept hkept⟩
  | rotateCommit r row sessionId => exact ⟨h.1.kept hkept, h.2.kept hkept⟩
  | _ => exact trivial

theorem TokenWrite.congr {call : Option AuthCall} {j : Id} {w : Option (Option RefreshToken)}
    (h : TokenWrite s call j w) (hat : s'.tokenAt j = s.tokenAt j) : TokenWrite s' call j w := by
  cases h with
  | update hrow hopen hsame => exact .update (hat.trans hrow) hopen hsame
  | insert hnone hcall hj => exact .insert (hat.trans hnone) hcall hj

/-- A write of another call to a row that it may take. -/
theorem Kept.writeToken {q : Nat} (hq : q ≠ p) {j : Id}
    (havailable : (s.tokens.cell j).available q = true) (row : RefreshToken) :
    Kept s (s.writeToken q j row) p where
  rows := by
    intro i found hfound
    refine ⟨found, ?_, SameToken.refl found⟩
    exact LockedTable.set_cell_cases (P := fun c => c.committed = some found)
      (fun hi => by rw [Cell.write_committed, ← hi]; exact hfound) fun _ => hfound
  tokens := by
    intro i hheld
    have hne : i ≠ j := by
      rintro rfl
      exact hq (Cell.not_heldBy_of_available havailable hheld).symm
    exact LockedTable.set_cell_of_ne hne
  sessions := fun _ _ => rfl

theorem Kept.writeSession {q : Nat} (hq : q ≠ p) {j : Id}
    (havailable : (s.sessions.cell j).available q = true) (row : Session) :
    Kept s (s.writeSession q j row) p where
  rows := fun _ found hfound => ⟨found, hfound, SameToken.refl found⟩
  tokens := fun _ _ => rfl
  sessions := by
    intro i hheld
    have hne : i ≠ j := by
      rintro rfl
      exact hq (Cell.not_heldBy_of_available havailable hheld).symm
    exact LockedTable.set_cell_of_ne hne

theorem not_heldBy_other {V : Type} {c : Cell V} {q : Nat} (hq : q ≠ p) (h : c.heldBy p) :
    ¬ c.heldBy q :=
  fun hheld => hq (Cell.heldBy_unique hheld h)

theorem Kept.rollback {q : Nat} (hq : q ≠ p) : Kept s (s.rollback q) p where
  rows := by
    intro i found hfound
    refine ⟨found, ?_, SameToken.refl found⟩
    show ((s.tokens.cell i).release q).committed = some found
    rw [Cell.release_committed]
    exact hfound
  tokens := fun i hheld => Cell.release_of_not_heldBy (not_heldBy_other hq hheld)
  sessions := fun i hheld => Cell.release_of_not_heldBy (not_heldBy_other hq hheld)

/-- A commit changes a row that was there in columns that may change. -/
theorem Chained.commit_row (h : Chained s calls) {q : Nat} {j : Id} {row : RefreshToken}
    (hrow : s.tokenAt j = some row) :
    ∃ row', (s.commit q).tokenAt j = some row' ∧ SameToken row row' ∧
      (row.revokedAt ≠ none → row' = row) := by
  show ∃ row', ((s.tokens.cell j).commit q).committed = some row' ∧ _
  rw [Cell.commit_committed]
  by_cases hheld : (s.tokens.cell j).heldBy q
  · obtain ⟨⟨q', w⟩, hlock, rfl⟩ := hheld
    have hwrite := (h.tokenLock j _ w hlock).2
    cases hwrite with
    | @update found found' hfound hopen hsame =>
        rw [hrow] at hfound
        cases hfound
        exact ⟨found', Cell.visible_of_write hlock, hsame, fun hne => absurd hopen hne⟩
    | insert hnone =>
        rw [hrow] at hnone
        cases hnone
  · rw [Cell.visible_of_not_heldBy hheld]
    exact ⟨row, hrow, SameToken.refl row, fun _ => rfl⟩

/-- A row after a commit was there before, or it is the token of a rotation. -/
theorem Chained.row_commit (h : Chained s calls) {q : Nat} {j : Id} {row' : RefreshToken}
    (hrow' : (s.commit q).tokenAt j = some row') :
    (∃ row, s.tokenAt j = some row ∧ SameToken row row' ∧
      (row'.revokedAt = none → row.revokedAt = none)) ∨
    ∃ r row sessionId, calls q = some (.rotateCommit r row sessionId) ∧ r.newSelector = j ∧
      s.tokenAt j = none ∧ row' = r.newToken row sessionId := by
  have hvisible : (s.tokens.cell j).visible q = some row' := by
    rw [← Cell.commit_committed]
    exact hrow'
  by_cases hheld : (s.tokens.cell j).heldBy q
  · obtain ⟨⟨q', w⟩, hlock, rfl⟩ := hheld
    have hwrite := (h.tokenLock j _ w hlock).2
    cases hwrite with
    | update hfound hopen hsame =>
        rw [Cell.visible_of_write hlock] at hvisible
        cases hvisible
        exact .inl ⟨_, hfound, hsame, fun _ => hopen⟩
    | insert hnone hcall hj =>
        rw [Cell.visible_of_write hlock] at hvisible
        cases hvisible
        exact .inr ⟨_, _, _, hcall, hj, hnone, rfl⟩
  · rw [Cell.visible_of_not_heldBy hheld] at hvisible
    exact .inl ⟨row', hvisible, SameToken.refl row', fun h => h⟩

theorem Chained.commit_session (h : Chained s calls) {q : Nat} {j : Id}
    (hsession : s.sessionAt j ≠ none) : (s.commit q).sessionAt j ≠ none := by
  show ((s.sessions.cell j).commit q).committed ≠ none
  rw [Cell.commit_committed]
  by_cases hheld : (s.sessions.cell j).heldBy q
  · obtain ⟨⟨q', w⟩, hlock, rfl⟩ := hheld
    obtain ⟨-, session, session', -, -, rfl⟩ := h.sessionLock j _ w hlock
    rw [Cell.visible_of_write hlock]
    exact Option.some_ne_none session'
  · rw [Cell.visible_of_not_heldBy hheld]
    exact hsession

theorem Kept.commit (h : Chained s calls) {q : Nat} (hq : q ≠ p) : Kept s (s.commit q) p where
  rows := by
    intro i found hfound
    obtain ⟨row', hrow', hsame, -⟩ := h.commit_row hfound
    exact ⟨row', hrow', hsame⟩
  tokens := fun i hheld => Cell.commit_of_not_heldBy (not_heldBy_other hq hheld)
  sessions := fun i hheld => Cell.commit_of_not_heldBy (not_heldBy_other hq hheld)

theorem SessionWrite.congr {j : Id} {w : Option (Option Session)} (h : SessionWrite s j w)
    (hat : s'.sessionAt j = s.sessionAt j) : SessionWrite s' j w := by
  obtain ⟨session, session', hsession, hlive, hw⟩ := h
  exact ⟨session, session', hat.trans hsession, hlive, hw⟩

theorem Linked.congr (h : Linked s) (htokens : ∀ j, s'.tokenAt j = s.tokenAt j)
    (hsessions : ∀ j, s'.sessionAt j = s.sessionAt j) : Linked s' where
  selector := by
    intro j row hrow
    rw [htokens] at hrow
    exact h.selector j row hrow
  predecessor := by
    intro j row old hrow hold
    rw [htokens] at hrow ⊢
    exact h.predecessor j row old hrow hold
  successor := by
    intro i j row row' old hrow hrow' hold hold'
    rw [htokens] at hrow hrow'
    exact h.successor i j row row' old hrow hrow' hold hold'
  single := by
    intro i j row row' sessionId hrow hrow' hopen hopen' hsession hsession'
    rw [htokens] at hrow hrow'
    exact h.single i j row row' sessionId hrow hrow' hopen hopen' hsession hsession'
  session := by
    intro j row sessionId hrow hsession
    rw [htokens] at hrow
    rw [hsessions]
    exact h.session j row sessionId hrow hsession

/-- A commit of a rotation revokes the token that it names as the predecessor of the one it
adds; every other commit adds no token. -/
theorem Chained.linked_commit (h : Chained s calls) (q : Nat) : Linked (s.commit q) := by
  -- what a token that the commit adds finds
  have hadded {r : Rotation} {row : RefreshToken} {sessionId : Id}
      (hcall : calls q = some (.rotateCommit r row sessionId)) :
      row.tokenSelector = r.oldTokenSelector ∧ ∃ found revoked,
        s.tokenAt r.oldTokenSelector = some found ∧ found.revokedAt = none ∧
        found.sessionId = some sessionId ∧
        (s.commit q).tokenAt r.oldTokenSelector = some revoked ∧ revoked.revokedAt ≠ none := by
    obtain ⟨⟨hselector, found, revoked, hlock, hfound, hopen, hsession, hrevoked⟩, -⟩ :=
      h.stands q _ hcall
    refine ⟨hselector, found, revoked, hfound, hopen, hsession, ?_, hrevoked⟩
    show ((s.tokens.cell r.oldTokenSelector).commit q).committed = some revoked
    rw [Cell.commit_committed, Cell.visible_of_write hlock]
  constructor
  case selector =>
    intro j row' hrow'
    obtain ⟨row, hrow, hsame, -⟩ | ⟨r, row, sessionId, -, hj, -, rfl⟩ := h.row_commit hrow'
    · exact hsame.selector.trans (h.selector j row hrow)
    · exact hj
  case predecessor =>
    intro j row' old hrow' hold
    obtain ⟨row, hrow, hsame, -⟩ | ⟨r, row, sessionId, hcall, -, -, rfl⟩ := h.row_commit hrow'
    · obtain ⟨oldRow, holdRow, hrevoked⟩ :=
        h.predecessor j row old hrow (hsame.rotatedFrom.symm.trans hold)
      obtain ⟨oldRow', holdRow', -, hkeep⟩ := h.commit_row (q := q) holdRow
      refine ⟨oldRow', holdRow', ?_⟩
      rw [hkeep hrevoked]
      exact hrevoked
    · obtain ⟨hselector, -, revoked, -, -, -, hafter, hrevoked⟩ := hadded hcall
      have hname : row.tokenSelector = old := Option.some.inj hold
      rw [← hname, hselector]
      exact ⟨revoked, hafter, hrevoked⟩
  case successor =>
    -- a token that rotation `r` has yet to revoke is the predecessor of none
    have hnot {r : Rotation} {row row' : RefreshToken} {sessionId j : Id} {old : Id}
        (hcall : calls q = some (.rotateCommit r row sessionId)) (hrow' : s.tokenAt j = some row')
        (hnew : row.tokenSelector = old) (hold : row'.rotatedFromId = some old) : False := by
      obtain ⟨hselector, found, -, hfound, hopen, -⟩ := hadded hcall
      obtain ⟨oldRow, holdRow, hrevoked⟩ := h.predecessor j row' old hrow' hold
      rw [← hnew, hselector, hfound] at holdRow
      cases holdRow
      exact hrevoked hopen
    intro i j row₁ row₂ old hrow₁ hrow₂ hold₁ hold₂
    obtain ⟨row, hrow, hsame, -⟩ | ⟨r, row, sessionId, hcall, hi, -, rfl⟩ := h.row_commit hrow₁
    · have hfrom := hsame.rotatedFrom.symm.trans hold₁
      obtain ⟨row', hrow', hsame', -⟩ | ⟨r, row', sessionId, hcall, -, -, rfl⟩ :=
        h.row_commit hrow₂
      · exact h.successor i j row row' old hrow hrow' hfrom
          (hsame'.rotatedFrom.symm.trans hold₂)
      · exact (hnot hcall hrow (Option.some.inj hold₂) hfrom).elim
    · obtain ⟨row', hrow', hsame', -⟩ | ⟨r', row', sessionId', hcall', hj, -, rfl⟩ :=
        h.row_commit hrow₂
      · exact (hnot hcall hrow' (Option.some.inj hold₁)
          (hsame'.rotatedFrom.symm.trans hold₂)).elim
      · rw [hcall] at hcall'
        cases hcall'
        exact hi.symm.trans hj
  case single =>
    -- the only token of the session that is not revoked is the one that is rotated
    have hnot {r : Rotation} {row row₁ row₂ : RefreshToken} {sessionId j : Id}
        (hcall : calls q = some (.rotateCommit r row sessionId)) (hrow₁ : s.tokenAt j = some row₁)
        (hopen₁ : row₁.revokedAt = none) (hsession₁ : row₁.sessionId = some sessionId)
        (hrow₂ : (s.commit q).tokenAt j = some row₂) (hopen₂ : row₂.revokedAt = none) : False := by
      obtain ⟨-, found, revoked, hfound, hopen, hsession, hafter, hrevoked⟩ := hadded hcall
      have hj := h.single j r.oldTokenSelector row₁ found sessionId hrow₁ hfound hopen₁ hopen
        hsession₁ hsession
      rw [hj, hafter] at hrow₂
      cases hrow₂
      exact hrevoked hopen₂
    intro i j row₁ row₂ sessionId hrow₁ hrow₂ hopen₁ hopen₂ hsession₁ hsession₂
    obtain ⟨row, hrow, hsame, hopen⟩ | ⟨r, row, sessionId', hcall, hi, -, rfl⟩ :=
      h.row_commit hrow₁
    · have hsession := hsame.session.symm.trans hsession₁
      obtain ⟨row', hrow', hsame', hopen'⟩ | ⟨r, row', sessionId', hcall, -, -, rfl⟩ :=
        h.row_commit hrow₂
      · exact h.single i j row row' sessionId hrow hrow' (hopen hopen₁) (hopen' hopen₂) hsession
          (hsame'.session.symm.trans hsession₂)
      · have hid : sessionId' = sessionId := Option.some.inj hsession₂
        subst hid
        exact (hnot hcall hrow (hopen hopen₁) hsession hrow₁ hopen₁).elim
    · have hid : sessionId' = sessionId := Option.some.inj hsession₁
      subst hid
      obtain ⟨row', hrow', hsame', hopen'⟩ | ⟨r', row', sessionId'', hcall', hj, -, rfl⟩ :=
        h.row_commit hrow₂
      · exact (hnot hcall hrow' (hopen' hopen₂) (hsame'.session.symm.trans hsession₂) hrow₂
          hopen₂).elim
      · rw [hcall] at hcall'
        cases hcall'
        exact hi.symm.trans hj
  case session =>
    intro j row' sessionId hrow' hsession
    refine h.commit_session ?_
    obtain ⟨row, hrow, hsame, -⟩ | ⟨r, row, sessionId', hcall, -, -, rfl⟩ := h.row_commit hrow'
    · exact h.session j row sessionId hrow (hsame.session.symm.trans hsession)
    · have hid : sessionId' = sessionId := Option.some.inj hsession
      subst hid
      obtain ⟨-, found, -, hfound, -, hfoundSession, -⟩ := hadded hcall
      exact h.session _ found sessionId' hfound hfoundSession

/-- A call moves on: the committed rows are linked, the locks are its own or were there, and
the others find what they found. -/
theorem Chained.move (h : Chained s calls) (hlinked : Linked s') (hkept : ∀ q, q ≠ p → Kept s s' q)
    (htokens : ∀ j q w, (s'.tokens.cell j).lock = some ⟨q, w⟩ →
      q = p ∧ k'.inTransaction = true ∧ TokenWrite s' (some k') j w ∨
      q ≠ p ∧ (s.tokens.cell j).lock = some ⟨q, w⟩ ∧ s'.tokenAt j = s.tokenAt j)
    (hsessions : ∀ j q w, (s'.sessions.cell j).lock = some ⟨q, w⟩ →
      q = p ∧ k'.inTransaction = true ∧ SessionWrite s' j w ∨
      q ≠ p ∧ (s.sessions.cell j).lock = some ⟨q, w⟩ ∧ s'.sessionAt j = s.sessionAt j)
    (hstands : Stands s' p k')
    (hothers : ∀ q user outletId fresh, q ≠ p →
      calls q = some (.loginToken user outletId fresh) → Waits s' fresh)
    (hlogin : ∀ user outletId fresh, k' = .loginToken user outletId fresh → Waits s' fresh ∧
      ∀ q user' outletId' fresh', q ≠ p →
        calls q = some (.loginToken user' outletId' fresh') → fresh'.sessionId ≠ fresh.sessionId) :
    Chained s' (Function.update calls p (some k')) where
  toLinked := hlinked
  tokenLock := by
    intro j q w hlock
    obtain ⟨rfl, hin, hwrite⟩ | ⟨hq, hlock, hat⟩ := htokens j q w hlock
    · rw [Function.update_self]
      exact ⟨⟨k', rfl, hin⟩, hwrite⟩
    · rw [Function.update_of_ne hq]
      obtain ⟨hcall, hwrite⟩ := h.tokenLock j q w hlock
      exact ⟨hcall, hwrite.congr hat⟩
  sessionLock := by
    intro j q w hlock
    obtain ⟨rfl, hin, hwrite⟩ | ⟨hq, hlock, hat⟩ := hsessions j q w hlock
    · rw [Function.update_self]
      exact ⟨⟨k', rfl, hin⟩, hwrite⟩
    · rw [Function.update_of_ne hq]
      obtain ⟨hcall, hwrite⟩ := h.sessionLock j q w hlock
      exact ⟨hcall, hwrite.congr hat⟩
  stands := by
    intro q call hcall
    by_cases hq : q = p
    · subst hq
      rw [Function.update_self] at hcall
      cases hcall
      exact hstands
    · rw [Function.update_of_ne hq] at hcall
      exact (h.stands q call hcall).kept (hkept q hq)
  waits := by
    intro q user outletId fresh hcall
    by_cases hq : q = p
    · subst hq
      rw [Function.update_self] at hcall
      exact (hlogin user outletId fresh (Option.some.inj hcall)).1
    · rw [Function.update_of_ne hq] at hcall
      exact hothers q user outletId fresh hq hcall
  logins := by
    intro i q user user' outletId outletId' fresh fresh' hi hq hsession
    by_cases hip : i = p
    · subst hip
      by_cases hqp : q = i
      · exact hqp.symm
      · rw [Function.update_self] at hi
        rw [Function.update_of_ne hqp] at hq
        exact ((hlogin _ _ _ (Option.some.inj hi)).2 q _ _ _ hqp hq hsession.symm).elim
    · rw [Function.update_of_ne hip] at hi
      by_cases hqp : q = p
      · subst hqp
        rw [Function.update_self] at hq
        exact ((hlogin _ _ _ (Option.some.inj hq)).2 i _ _ _ hip hi hsession).elim
      · rw [Function.update_of_ne hqp] at hq
        exact h.logins i q user user' outletId outletId' fresh fresh' hi hq hsession

theorem Waits.congr {fresh : Fresh} (h : Waits s fresh) (htokens : ∀ j, s'.tokenAt j = s.tokenAt j)
    (hsessions : ∀ j, s'.sessionAt j = s.sessionAt j) : Waits s' fresh := by
  constructor
  · rw [hsessions]
    exact h.1
  · intro j row hrow
    rw [htokens] at hrow
    exact h.2 j row hrow

/-- A call that is not a login about to insert its token moves on, and no committed row
changes. -/
theorem Chained.moveOpen (h : Chained s calls) (htokenAt : ∀ j, s'.tokenAt j = s.tokenAt j)
    (hsessionAt : ∀ j, s'.sessionAt j = s.sessionAt j) (hkept : ∀ q, q ≠ p → Kept s s' q)
    (htokens : ∀ j q w, (s'.tokens.cell j).lock = some ⟨q, w⟩ →
      q = p ∧ k'.inTransaction = true ∧ TokenWrite s (some k') j w ∨
      q ≠ p ∧ (s.tokens.cell j).lock = some ⟨q, w⟩)
    (hsessions : ∀ j q w, (s'.sessions.cell j).lock = some ⟨q, w⟩ →
      q = p ∧ k'.inTransaction = true ∧ SessionWrite s j w ∨
      q ≠ p ∧ (s.sessions.cell j).lock = some ⟨q, w⟩)
    (hstands : Stands s' p k')
    (hlogin : ∀ user outletId fresh, k' ≠ .loginToken user outletId fresh) :
    Chained s' (Function.update calls p (some k')) := by
  refine h.move (h.toLinked.congr htokenAt hsessionAt) hkept ?_ ?_ hstands ?_ ?_
  · intro j q w hlock
    obtain ⟨hq, hin, hwrite⟩ | ⟨hq, hlock⟩ := htokens j q w hlock
    · exact .inl ⟨hq, hin, hwrite.congr (htokenAt j)⟩
    · exact .inr ⟨hq, hlock, htokenAt j⟩
  · intro j q w hlock
    obtain ⟨hq, hin, hwrite⟩ | ⟨hq, hlock⟩ := hsessions j q w hlock
    · exact .inl ⟨hq, hin, hwrite.congr (hsessionAt j)⟩
    · exact .inr ⟨hq, hlock, hsessionAt j⟩
  · intro q user outletId fresh _ hcall
    exact (h.waits q user outletId fresh hcall).congr htokenAt hsessionAt
  · intro user outletId fresh hk'
    exact absurd hk' (hlogin user outletId fresh)

/-- What a lock of `p` has written, when it is not about to commit a rotation. -/
theorem Chained.own_token (h : Chained s calls) (hk : calls p = some k)
    (hnot : ∀ r row sessionId, k ≠ .rotateCommit r row sessionId) {j : Id}
    {w : Option (Option RefreshToken)} (hlock : (s.tokens.cell j).lock = some ⟨p, w⟩)
    (call : Option AuthCall) : k.inTransaction = true ∧ TokenWrite s call j w := by
  obtain ⟨⟨k₀, hcall, hin⟩, hwrite⟩ := h.tokenLock j p w hlock
  rw [hk] at hcall hwrite
  cases hcall
  refine ⟨hin, ?_⟩
  cases hwrite with
  | update hrow hopen hsame => exact .update hrow hopen hsame
  | insert hnone hcall hj => exact (hnot _ _ _ (Option.some.inj hcall)).elim

theorem Chained.own_session (h : Chained s calls) (hk : calls p = some k) {j : Id}
    {w : Option (Option Session)} (hlock : (s.sessions.cell j).lock = some ⟨p, w⟩) :
    k.inTransaction = true ∧ SessionWrite s j w := by
  obtain ⟨⟨k₀, hcall, hin⟩, hwrite⟩ := h.sessionLock j p w hlock
  rw [hk] at hcall
  cases hcall
  exact ⟨hin, hwrite⟩

theorem Kept.congr {q : Nat} (htokens : s'.tokens = s.tokens)
    (hsessions : s'.sessions = s.sessions) :
    Kept s s' q where
  rows := by
    intro j row hrow
    refine ⟨row, ?_, SameToken.refl row⟩
    rw [AuthStore.tokenAt, htokens]
    exact hrow
  tokens := by
    intro j _
    rw [htokens]
  sessions := by
    intro j _
    rw [hsessions]

/-- A step that reads, or writes another table. -/
theorem Chained.proceed (h : Chained s calls) (hk : calls p = some k)
    (htokens : s'.tokens = s.tokens) (hsessions : s'.sessions = s.sessions)
    (hin : k.inTransaction = true → k'.inTransaction = true)
    (hnot : ∀ r row sessionId, k ≠ .rotateCommit r row sessionId) (hstands : Stands s' p k')
    (hlogin : ∀ user outletId fresh, k' ≠ .loginToken user outletId fresh) :
    Chained s' (Function.update calls p (some k')) := by
  refine h.moveOpen ?_ ?_ (fun _ _ => Kept.congr htokens hsessions) ?_ ?_ hstands hlogin
  · intro j
    rw [AuthStore.tokenAt, htokens]
    rfl
  · intro j
    rw [AuthStore.sessionAt, hsessions]
    rfl
  · intro j q w hlock
    rw [htokens] at hlock
    by_cases hq : q = p
    · subst hq
      obtain ⟨htx, hwrite⟩ := h.own_token hk hnot hlock (some k')
      exact .inl ⟨rfl, hin htx, hwrite⟩
    · exact .inr ⟨hq, hlock⟩
  · intro j q w hlock
    rw [hsessions] at hlock
    by_cases hq : q = p
    · subst hq
      obtain ⟨htx, hwrite⟩ := h.own_session hk hlock
      exact .inl ⟨rfl, hin htx, hwrite⟩
    · exact .inr ⟨hq, hlock⟩

theorem lock_writeToken {i j : Id} {row : RefreshToken} {q : Nat} {w : Option (Option RefreshToken)}
    (hlock : ((s.writeToken p j row).tokens.cell i).lock = some ⟨q, w⟩) :
    i = j ∧ q = p ∧ w = some (some row) ∨ i ≠ j ∧ (s.tokens.cell i).lock = some ⟨q, w⟩ := by
  by_cases hi : i = j
  · subst hi
    rw [show (s.writeToken p i row).tokens.cell i = (s.tokens.cell i).write p (some row) from
      LockedTable.set_cell_self] at hlock
    cases hlock
    exact .inl ⟨rfl, rfl, rfl⟩
  · rw [show (s.writeToken p j row).tokens.cell i = s.tokens.cell i from
      LockedTable.set_cell_of_ne hi] at hlock
    exact .inr ⟨hi, hlock⟩

theorem lock_writeSession {i j : Id} {row : Session} {q : Nat} {w : Option (Option Session)}
    (hlock : ((s.writeSession p j row).sessions.cell i).lock = some ⟨q, w⟩) :
    i = j ∧ q = p ∧ w = some (some row) ∨ i ≠ j ∧ (s.sessions.cell i).lock = some ⟨q, w⟩ := by
  by_cases hi : i = j
  · subst hi
    rw [show (s.writeSession p i row).sessions.cell i = (s.sessions.cell i).write p (some row) from
      LockedTable.set_cell_self] at hlock
    cases hlock
    exact .inl ⟨rfl, rfl, rfl⟩
  · rw [show (s.writeSession p j row).sessions.cell i = s.sessions.cell i from
      LockedTable.set_cell_of_ne hi] at hlock
    exact .inr ⟨hi, hlock⟩

theorem tokenAt_writeToken (s : AuthStore) (p : Nat) (j : Id) (row : RefreshToken) (i : Id) :
    (s.writeToken p j row).tokenAt i = s.tokenAt i :=
  LockedTable.set_cell_cases (P := fun c => c.committed = s.tokenAt i)
    (fun hi => by rw [Cell.write_committed, hi]; rfl) fun _ => rfl

theorem sessionAt_writeSession (s : AuthStore) (p : Nat) (j : Id) (row : Session) (i : Id) :
    (s.writeSession p j row).sessionAt i = s.sessionAt i :=
  LockedTable.set_cell_cases (P := fun c => c.committed = s.sessionAt i)
    (fun hi => by rw [Cell.write_committed, hi]; rfl) fun _ => rfl

/-- A step that writes a token under its row lock. -/
theorem Chained.writeToken (h : Chained s calls) (hk : calls p = some k) {j : Id}
    {row : RefreshToken} (havailable : (s.tokens.cell j).available p = true)
    (hwrite : TokenWrite s (some k') j (some (some row))) (hin : k'.inTransaction = true)
    (hnot : ∀ r row sessionId, k ≠ .rotateCommit r row sessionId)
    (hstands : Stands (s.writeToken p j row) p k')
    (hlogin : ∀ user outletId fresh, k' ≠ .loginToken user outletId fresh) :
    Chained (s.writeToken p j row) (Function.update calls p (some k')) := by
  refine h.moveOpen (tokenAt_writeToken s p j row) (fun _ => rfl)
    (fun q hq => Kept.writeToken hq.symm havailable row) ?_ ?_ hstands hlogin
  · intro i q w hlock
    obtain ⟨rfl, rfl, rfl⟩ | ⟨-, hold⟩ := lock_writeToken hlock
    · exact .inl ⟨rfl, hin, hwrite⟩
    · by_cases hq : q = p
      · subst hq
        exact .inl ⟨rfl, hin, (h.own_token hk hnot hold (some k')).2⟩
      · exact .inr ⟨hq, hold⟩
  · intro i q w hlock
    by_cases hq : q = p
    · subst hq
      exact .inl ⟨rfl, hin, (h.own_session hk hlock).2⟩
    · exact .inr ⟨hq, hlock⟩

/-- A step that writes a session under its row lock. -/
theorem Chained.writeSession (h : Chained s calls) (hk : calls p = some k) {j : Id}
    {row : Session} (havailable : (s.sessions.cell j).available p = true)
    (hwrite : SessionWrite s j (some (some row))) (hin : k'.inTransaction = true)
    (hnot : ∀ r row sessionId, k ≠ .rotateCommit r row sessionId)
    (hstands : Stands (s.writeSession p j row) p k')
    (hlogin : ∀ user outletId fresh, k' ≠ .loginToken user outletId fresh) :
    Chained (s.writeSession p j row) (Function.update calls p (some k')) := by
  refine h.moveOpen (fun _ => rfl) (sessionAt_writeSession s p j row)
    (fun q hq => Kept.writeSession hq.symm havailable row) ?_ ?_ hstands hlogin
  · intro i q w hlock
    by_cases hq : q = p
    · subst hq
      exact .inl ⟨rfl, hin, (h.own_token hk hnot hlock (some k')).2⟩
    · exact .inr ⟨hq, hlock⟩
  · intro i q w hlock
    obtain ⟨rfl, rfl, rfl⟩ | ⟨-, hold⟩ := lock_writeSession hlock
    · exact .inl ⟨rfl, hin, hwrite⟩
    · by_cases hq : q = p
      · subst hq
        exact .inl ⟨rfl, hin, (h.own_session hk hold).2⟩
      · exact .inr ⟨hq, hold⟩

/-- The transaction of a call ends without a commit. -/
theorem Chained.rollback (h : Chained s calls) (hstands : Stands (s.rollback p) p k')
    (hlogin : ∀ user outletId fresh, k' ≠ .loginToken user outletId fresh) :
    Chained (s.rollback p) (Function.update calls p (some k')) := by
  refine h.moveOpen (fun j => Cell.release_committed (s.tokens.cell j) p)
    (fun j => Cell.release_committed (s.sessions.cell j) p)
    (fun q hq => Kept.rollback hq.symm) ?_ ?_ hstands hlogin
  · intro j q w hlock
    refine .inr ⟨?_, Cell.lock_of_release hlock⟩
    rintro rfl
    exact Cell.not_heldBy_release (s.tokens.cell j) q ⟨_, hlock, rfl⟩
  · intro j q w hlock
    refine .inr ⟨?_, Cell.lock_of_release hlock⟩
    rintro rfl
    exact Cell.not_heldBy_release (s.sessions.cell j) q ⟨_, hlock, rfl⟩

theorem Chained.waits_commit (h : Chained s calls) {q : Nat} {fresh : Fresh}
    (hwaits : Waits s fresh) :
    Waits (s.commit q) fresh := by
  refine ⟨h.commit_session hwaits.1, fun j row' hrow' hsession => ?_⟩
  obtain ⟨row, hrow, hsame, -⟩ | ⟨r, row, sessionId, hcall, -, -, rfl⟩ := h.row_commit hrow'
  · exact hwaits.2 j row hrow (hsame.session.symm.trans hsession)
  · obtain ⟨⟨-, found, revoked, -, hfound, -, hfoundSession, -⟩, -⟩ := h.stands q _ hcall
    exact hwaits.2 _ found hfound (hfoundSession.trans hsession)

/-- The transaction of a call commits. -/
theorem Chained.commit (h : Chained s calls) (hstands : Stands (s.commit p) p k')
    (hlogin : ∀ user outletId fresh, k' ≠ .loginToken user outletId fresh) :
    Chained (s.commit p) (Function.update calls p (some k')) := by
  refine h.move (h.linked_commit p) (fun q hq => Kept.commit h hq.symm) ?_ ?_ hstands ?_ ?_
  · intro j q w hlock
    obtain ⟨hold, hcommitted⟩ := Cell.lock_of_commit hlock
    refine .inr ⟨?_, hold, hcommitted⟩
    rintro rfl
    exact Cell.not_heldBy_commit (s.tokens.cell j) q ⟨_, hlock, rfl⟩
  · intro j q w hlock
    obtain ⟨hold, hcommitted⟩ := Cell.lock_of_commit hlock
    refine .inr ⟨?_, hold, hcommitted⟩
    rintro rfl
    exact Cell.not_heldBy_commit (s.sessions.cell j) q ⟨_, hlock, rfl⟩
  · intro q user outletId fresh _ hcall
    exact h.waits_commit (h.waits q user outletId fresh hcall)
  · intro user outletId fresh hk'
    exact absurd hk' (hlogin user outletId fresh)

/-- An insert that is a transaction of its own. -/
theorem commit_write {V : Type} (c : Cell V) (p : Nat) (v : Option V) :
    (c.write p v).commit p = ⟨v, c.version + 1, none⟩ :=
  if_pos rfl

theorem cell_insertSession {i j : Id} {row : Session}
    (hfree : ∀ i, ¬ (s.sessions.cell i).heldBy p) :
    ((s.writeSession p j row).commit p).sessions.cell i =
      if i = j then ⟨some row, (s.sessions.cell j).version + 1, none⟩ else s.sessions.cell i := by
  show ((s.sessions.set j ((s.sessions.cell j).write p (some row))).cell i).commit p = _
  by_cases hi : i = j
  · subst hi
    rw [LockedTable.set_cell_self, if_pos rfl, commit_write]
  · rw [LockedTable.set_cell_of_ne hi, if_neg hi, Cell.commit_of_not_heldBy (hfree i)]

theorem cell_insertToken {i j : Id} {row : RefreshToken}
    (hfree : ∀ i, ¬ (s.tokens.cell i).heldBy p) :
    ((s.writeToken p j row).commit p).tokens.cell i =
      if i = j then ⟨some row, (s.tokens.cell j).version + 1, none⟩ else s.tokens.cell i := by
  show ((s.tokens.set j ((s.tokens.cell j).write p (some row))).cell i).commit p = _
  by_cases hi : i = j
  · subst hi
    rw [LockedTable.set_cell_self, if_pos rfl, commit_write]
  · rw [LockedTable.set_cell_of_ne hi, if_neg hi, Cell.commit_of_not_heldBy (hfree i)]

/-- A login inserts its session, which no token has yet. -/
theorem Chained.insertSession (h : Chained s calls) (hk : calls p = some k)
    (htx : k.inTransaction = false) {user : User} {outletId : Option Id} {fresh : Fresh}
    {row : Session} (hnone : s.sessionAt fresh.sessionId = none) :
    Chained ((s.writeSession p fresh.sessionId row).commit p)
      (Function.update calls p (some (.loginToken user outletId fresh))) := by
  have htokens (i : Id) : ((s.writeSession p fresh.sessionId row).commit p).tokens.cell i =
      s.tokens.cell i := Cell.commit_of_not_heldBy ((h.free hk htx).1 i)
  have hcell (i : Id) : ((s.writeSession p fresh.sessionId row).commit p).sessions.cell i =
      if i = fresh.sessionId then
        ⟨some row, (s.sessions.cell fresh.sessionId).version + 1, none⟩
      else s.sessions.cell i := cell_insertSession (h.free hk htx).2
  generalize (s.writeSession p fresh.sessionId row).commit p = s' at htokens hcell
  have htokenAt (i : Id) : s'.tokenAt i = s.tokenAt i := congrArg Cell.committed (htokens i)
  have hnew : s'.sessionAt fresh.sessionId = some row := by
    rw [AuthStore.sessionAt, hcell, if_pos rfl]
  have hold {i : Id} (hi : i ≠ fresh.sessionId) : s'.sessions.cell i = s.sessions.cell i := by
    rw [hcell, if_neg hi]
  have hsessionAt {i : Id} (hsession : s.sessionAt i ≠ none) : s'.sessionAt i = s.sessionAt i := by
    have hi : i ≠ fresh.sessionId := by
      rintro rfl
      exact hsession hnone
    exact congrArg Cell.committed (hold hi)
  -- no row of the new id is held: an update is of a row that is there
  have hlock {i : Id} {l : RowLock Session} (hl : (s.sessions.cell i).lock = some l) :
      i ≠ fresh.sessionId := by
    obtain ⟨-, session, -, hsession, -⟩ := h.sessionLock i l.holder l.written hl
    rintro rfl
    rw [hnone] at hsession
    cases hsession
  have hkept (q : Nat) : Kept s s' q := by
    constructor
    · intro j found hfound
      exact ⟨found, (htokenAt j).trans hfound, SameToken.refl found⟩
    · intro j _
      exact htokens j
    · rintro j ⟨l, hl, -⟩
      exact hold (hlock hl)
  refine h.move ?_ (fun q _ => hkept q) ?_ ?_ trivial ?_ ?_
  · constructor
    case selector =>
      intro j row hrow
      exact h.selector j row ((htokenAt j).symm.trans hrow)
    case predecessor =>
      intro j row old hrow hfrom
      rw [htokenAt] at hrow ⊢
      exact h.predecessor j row old hrow hfrom
    case successor =>
      intro i j row row' old hrow hrow'
      rw [htokenAt] at hrow hrow'
      exact h.successor i j row row' old hrow hrow'
    case single =>
      intro i j row row' sessionId hrow hrow'
      rw [htokenAt] at hrow hrow'
      exact h.single i j row row' sessionId hrow hrow'
    case session =>
      intro j row sessionId hrow hsession
      rw [htokenAt] at hrow
      have hthere := h.session j row sessionId hrow hsession
      rw [hsessionAt hthere]
      exact hthere
  · intro j q w hl
    rw [htokens] at hl
    have hq : q ≠ p := by
      rintro rfl
      exact (h.free hk htx).1 j ⟨_, hl, rfl⟩
    exact .inr ⟨hq, hl, htokenAt j⟩
  · intro j q w hl
    rw [hcell] at hl
    by_cases hj : j = fresh.sessionId
    · rw [if_pos hj] at hl
      cases hl
    · rw [if_neg hj] at hl
      have hq : q ≠ p := by
        rintro rfl
        exact (h.free hk htx).2 j ⟨_, hl, rfl⟩
      exact .inr ⟨hq, hl, congrArg Cell.committed (hold hj)⟩
  · intro q user' outletId' fresh' _ hcall
    obtain ⟨hthere, htoken⟩ := h.waits q user' outletId' fresh' hcall
    constructor
    · rw [hsessionAt hthere]
      exact hthere
    · intro j row hrow
      exact htoken j row ((htokenAt j).symm.trans hrow)
  · rintro _ _ _ ⟨⟩
    refine ⟨⟨?_, ?_⟩, ?_⟩
    · rw [hnew]
      exact Option.some_ne_none row
    · intro j token htoken hsession
      exact h.session j token fresh.sessionId ((htokenAt j).symm.trans htoken) hsession hnone
    · intro q user' outletId' fresh' _ hcall hsame
      rw [← hsame] at hnone
      exact (h.waits q user' outletId' fresh' hcall).1 hnone

/-- A login inserts the first token of its session. -/
theorem Chained.insertToken (h : Chained s calls) {user : User} {outletId : Option Id}
    {fresh : Fresh} (hk : calls p = some (.loginToken user outletId fresh)) {row : RefreshToken}
    (hnone : s.tokenAt fresh.selector = none)
    (havailable : (s.tokens.cell fresh.selector).available p = true)
    (hselector : row.tokenSelector = fresh.selector)
    (hsession : row.sessionId = some fresh.sessionId)
    (hfrom : row.rotatedFromId = none) :
    Chained ((s.writeToken p fresh.selector row).commit p)
      (Function.update calls p (some .done)) := by
  obtain ⟨hthere, hwaits⟩ := h.waits p user outletId fresh hk
  have hfree := h.free hk rfl
  have hsessions (i : Id) : ((s.writeToken p fresh.selector row).commit p).sessions.cell i =
      s.sessions.cell i := Cell.commit_of_not_heldBy (hfree.2 i)
  have hcell (i : Id) : ((s.writeToken p fresh.selector row).commit p).tokens.cell i =
      if i = fresh.selector then ⟨some row, (s.tokens.cell fresh.selector).version + 1, none⟩
      else s.tokens.cell i := cell_insertToken hfree.1
  generalize (s.writeToken p fresh.selector row).commit p = s' at hsessions hcell
  have hsessionAt (i : Id) : s'.sessionAt i = s.sessionAt i := congrArg Cell.committed (hsessions i)
  have hcases {i : Id} {token : RefreshToken} (htoken : s'.tokenAt i = some token) :
      i = fresh.selector ∧ token = row ∨ s.tokenAt i = some token := by
    rw [AuthStore.tokenAt, hcell] at htoken
    by_cases hi : i = fresh.selector
    · rw [if_pos hi] at htoken
      cases htoken
      exact .inl ⟨hi, rfl⟩
    · rw [if_neg hi] at htoken
      exact .inr htoken
  have hold {i : Id} (hi : i ≠ fresh.selector) : s'.tokens.cell i = s.tokens.cell i := by
    rw [hcell, if_neg hi]
  have htokenAt {i : Id} {token : RefreshToken} (htoken : s.tokenAt i = some token) :
      s'.tokenAt i = some token := by
    have hi : i ≠ fresh.selector := by
      rintro rfl
      rw [hnone] at htoken
      cases htoken
    exact (congrArg Cell.committed (hold hi)).trans htoken
  have hheld {i : Id} {q : Nat} (hq : (s.tokens.cell i).heldBy q) : i ≠ fresh.selector := by
    rintro rfl
    have hp : q = p := Cell.not_heldBy_of_available havailable hq
    subst hp
    exact hfree.1 _ hq
  have hkept (q : Nat) : Kept s s' q := by
    constructor
    · intro j found hfound
      exact ⟨found, htokenAt hfound, SameToken.refl found⟩
    · intro j hq
      exact hold (hheld hq)
    · intro j _
      exact hsessions j
  refine h.move ?_ (fun q _ => hkept q) ?_ ?_ trivial ?_ (fun _ _ _ => nofun)
  · constructor
    case selector =>
      intro j token htoken
      obtain ⟨hj, htoken⟩ | htoken := hcases htoken
      · rw [htoken, hj]
        exact hselector
      · exact h.selector j token htoken
    case predecessor =>
      intro j token old htoken hname
      obtain ⟨-, rfl⟩ | htoken := hcases htoken
      · rw [hfrom] at hname
        cases hname
      · obtain ⟨oldRow, holdRow, hrevoked⟩ := h.predecessor j token old htoken hname
        exact ⟨oldRow, htokenAt holdRow, hrevoked⟩
    case successor =>
      intro i j token token' old htoken htoken' hname hname'
      obtain ⟨-, rfl⟩ | htoken := hcases htoken
      · rw [hfrom] at hname
        cases hname
      · obtain ⟨-, rfl⟩ | htoken' := hcases htoken'
        · rw [hfrom] at hname'
          cases hname'
        · exact h.successor i j token token' old htoken htoken' hname hname'
    case single =>
      intro i j token token' sessionId htoken htoken' hopen hopen' hof hof'
      obtain ⟨hi, rfl⟩ | htoken := hcases htoken
      · rw [hsession] at hof
        obtain ⟨hj, -⟩ | htoken' := hcases htoken'
        · exact hi.trans hj.symm
        · exact (hwaits j token' htoken' (hof'.trans hof.symm)).elim
      · obtain ⟨-, rfl⟩ | htoken' := hcases htoken'
        · rw [hsession] at hof'
          exact (hwaits i token htoken (hof.trans hof'.symm)).elim
        · exact h.single i j token token' sessionId htoken htoken' hopen hopen' hof hof'
    case session =>
      intro j token sessionId htoken hof
      rw [hsessionAt]
      obtain ⟨-, rfl⟩ | htoken := hcases htoken
      · rw [hsession] at hof
        cases hof
        exact hthere
      · exact h.session j token sessionId htoken hof
  · intro j q w hl
    have hj : j ≠ fresh.selector := by
      rintro rfl
      rw [hcell, if_pos rfl] at hl
      cases hl
    rw [hold hj] at hl
    have hq : q ≠ p := by
      rintro rfl
      exact hfree.1 j ⟨_, hl, rfl⟩
    exact .inr ⟨hq, hl, congrArg Cell.committed (hold hj)⟩
  · intro j q w hl
    rw [hsessions] at hl
    have hq : q ≠ p := by
      rintro rfl
      exact hfree.2 j ⟨_, hl, rfl⟩
    exact .inr ⟨hq, hl, hsessionAt j⟩
  · intro q user' outletId' fresh' hq hcall
    obtain ⟨hthere', hwaits'⟩ := h.waits q user' outletId' fresh' hcall
    constructor
    · rw [hsessionAt]
      exact hthere'
    · intro j token htoken hof
      obtain ⟨-, rfl⟩ | htoken := hcases htoken
      · rw [hsession] at hof
        exact hq (h.logins q p user' user outletId' outletId fresh' fresh hcall hk
          (Option.some.inj hof).symm)
      · exact hwaits' j token htoken hof

end Auth
end ERP
