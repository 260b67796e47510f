import ERP.Auth.Rotation

/-!
# Runs of rotations

What one step can do to the tokens and the sessions, and from it what holds in every state
that the calls reach.
-/

namespace ERP
namespace Auth

open Lib

variable {s s' : AuthStore} {calls : Nat → Option AuthCall} {p : Nat} {k k' : AuthCall}
  (verify : VerifySecret)

theorem stands_of_plain (h : k.plain = true) (s : AuthStore) (p : Nat) : Stands s p k := by
  cases k with
  | rotateConsume r row sessionId => cases h
  | rotateSession r row sessionId => cases h
  | rotateInsert r row sessionId => cases h
  | rotateCommit r row sessionId => cases h
  | _ => exact trivial

theorem plain_ne_login (h : k.plain = true) (user : User) (outletId : Option Id) (fresh : Fresh) :
    k ≠ .loginToken user outletId fresh := by
  rintro rfl
  cases h

theorem plain_ne_commit (h : k.plain = true) (r : Rotation) (row : RefreshToken) (sessionId : Id) :
    k ≠ .rotateCommit r row sessionId := by
  rintro rfl
  cases h

/-- What a call that is not about to commit a rotation sees of a token that was committed. -/
theorem Chained.visible_row (h : Chained s calls) (hk : calls p = some k)
    (hnot : ∀ r row sessionId, k ≠ .rotateCommit r row sessionId) {j : Id} {found : RefreshToken}
    (hfound : (s.tokens.cell j).visible p = some found) :
    ∃ row, s.tokenAt j = some row ∧ SameToken row found ∧
      (found.revokedAt = none → row.revokedAt = none) := by
  by_cases hheld : (s.tokens.cell j).heldBy p
  · obtain ⟨⟨q, w⟩, hlock, rfl⟩ := hheld
    have hwrite := (h.own_token hk hnot hlock none).2
    cases hwrite with
    | update hrow hopen hsame =>
        rw [Cell.visible_of_write hlock] at hfound
        cases hfound
        exact ⟨_, hrow, hsame, fun _ => hopen⟩
    | insert hnone hcall hj => cases hcall
  · rw [Cell.visible_of_not_heldBy hheld] at hfound
    exact ⟨found, hfound, SameToken.refl found, fun hopen => hopen⟩

theorem Chained.visible_session (h : Chained s calls) {j : Id} {found : Session}
    (hfound : (s.sessions.cell j).visible p = some found) :
    ∃ row, s.sessionAt j = some row ∧ (found.deletedAt = none → row.deletedAt = none) := by
  by_cases hheld : (s.sessions.cell j).heldBy p
  · obtain ⟨⟨q, w⟩, hlock, rfl⟩ := hheld
    obtain ⟨session, session', hsession, hlive, rfl⟩ := (h.sessionLock j _ w hlock).2
    exact ⟨session, hsession, fun _ => hlive⟩
  · rw [Cell.visible_of_not_heldBy hheld] at hfound
    exact ⟨found, hfound, fun hlive => hlive⟩

/-- Every step keeps the tokens linked. -/
theorem Chained.effect (h : Chained s calls) (hk : calls p = some k)
    (heffect : Effect s p k k' s') :
    Chained s' (Function.update calls p (some k')) := by
  cases heffect with
  | wait => exact System.stop_keeps h hk
  | read hin hplain htokens hsessions =>
      refine h.proceed hk htokens hsessions ?_ ?_ (stands_of_plain hplain s' p)
        (plain_ne_login hplain)
      · intro htx
        rw [hin] at htx
        cases htx
      · rintro r row sessionId rfl
        cases hin
  | pass hplain hin hplain' hsetting htokens hsessions =>
      exact h.proceed hk htokens hsessions (fun _ => hin) (plain_ne_commit hplain)
        (stands_of_plain hplain' s' p) (plain_ne_login hplain')
  | @find r row sessionId hstate hrow hsession =>
      subst hstate
      rw [h.visible_token hk rfl] at hrow
      refine h.proceed hk rfl rfl nofun nofun ?_ nofun
      exact ⟨h.selector _ row hrow, row, hrow, hsession⟩
  | @consume r row found revoked sessionId hstate havailable hfound hopen hsame hrevoked =>
      subst hstate
      rw [h.visible_token hk rfl] at hfound
      obtain ⟨hselector, found', hfound', hsession⟩ := h.stands p _ hk
      rw [hfound] at hfound'
      cases hfound'
      refine h.writeToken hk havailable (.update hfound hopen hsame) rfl nofun ?_ nofun
      refine ⟨hselector, found, revoked, ?_, ?_, hopen, hsession, hrevoked⟩
      · rw [show (s.writeToken p r.oldTokenSelector revoked).tokens.cell r.oldTokenSelector =
          (s.tokens.cell r.oldTokenSelector).write p (some revoked) from
          LockedTable.set_cell_self]
        rfl
      · rw [tokenAt_writeToken]
        exact hfound
  | @touch r row session sessionId hstate havailable hsession hlive =>
      subst hstate
      have hlive : session.deletedAt = none := (of_decide_eq_true hlive).2.2.2
      obtain ⟨before, hbefore, hopen⟩ := h.visible_session hsession
      refine h.writeSession hk havailable ⟨before, _, hbefore, hopen hlive, rfl⟩ rfl nofun ?_ nofun
      have hconsumed : Consumed s p r row sessionId := h.stands p _ hk
      refine ⟨hconsumed, ?_, before, ?_, hopen hlive⟩
      · rw [AuthStore.writeSession, LockedTable.set_cell_self]
        exact ⟨_, rfl, rfl⟩
      · rw [sessionAt_writeSession]
        exact hbefore
  | @rotate r row sessionId hstate hnone havailable =>
      subst hstate
      obtain ⟨hconsumed, htouched⟩ := h.stands p _ hk
      refine h.writeToken hk havailable (.insert hnone rfl rfl) rfl nofun ?_ nofun
      refine ⟨?_, htouched⟩
      obtain ⟨hselector, found, revoked, hlock, hfound, hopen, hsession, hrevoked⟩ := hconsumed
      have hne : r.oldTokenSelector ≠ r.newSelector := by
        intro heq
        rw [heq, hnone] at hfound
        cases hfound
      refine ⟨hselector, found, revoked, ?_, ?_, hopen, hsession, hrevoked⟩
      · rw [show (s.writeToken p r.newSelector (r.newToken row sessionId)).tokens.cell
          r.oldTokenSelector = s.tokens.cell r.oldTokenSelector from
          LockedTable.set_cell_of_ne hne]
        exact hlock
      · rw [tokenAt_writeToken]
        exact hfound
  | writeToken hplain hin hplain' hsetting havailable hfound hopen hsame =>
      obtain ⟨row, hrow, hrowSame, hrowOpen⟩ := h.visible_row hk (plain_ne_commit hplain) hfound
      exact h.writeToken hk havailable (.update hrow (hrowOpen hopen) (hrowSame.trans hsame)) hin
        (plain_ne_commit hplain) (stands_of_plain hplain' _ p) (plain_ne_login hplain')
  | writeSession hplain hin hplain' hsetting havailable hfound hlive =>
      obtain ⟨row, hrow, hrowLive⟩ := h.visible_session hfound
      exact h.writeSession hk havailable ⟨row, _, hrow, hrowLive hlive, rfl⟩ hin
        (plain_ne_commit hplain) (stands_of_plain hplain' _ p) (plain_ne_login hplain')
  | commit hin hk' =>
      have hplain : k'.plain = true := by
        rcases hk' with rfl | rfl
        · rfl
        · rfl
      exact h.commit (stands_of_plain hplain _ p) (plain_ne_login hplain)
  | rollback => exact h.rollback trivial nofun
  | insertSession hstate hnone =>
      subst hstate
      exact h.insertSession hk rfl hnone
  | insertToken hstate hnone havailable =>
      subst hstate
      exact h.insertToken hk hnone havailable rfl rfl rfl
/-- The committed tokens and sessions of both are the same. -/
def SameRows (s s' : AuthStore) : Prop :=
  (∀ j, s'.tokenAt j = s.tokenAt j) ∧ ∀ j, s'.sessionAt j = s.sessionAt j

theorem SameRows.refl (s : AuthStore) : SameRows s s := ⟨fun _ => rfl, fun _ => rfl⟩

theorem SameRows.congr (htokens : s'.tokens = s.tokens) (hsessions : s'.sessions = s.sessions) :
    SameRows s s' :=
  ⟨fun j => congrArg (fun t => (t.cell j).committed) htokens,
    fun j => congrArg (fun t => (t.cell j).committed) hsessions⟩

theorem SameRows.rollback (s : AuthStore) (p : Nat) : SameRows s (s.rollback p) :=
  ⟨fun j => Cell.release_committed (s.tokens.cell j) p,
    fun j => Cell.release_committed (s.sessions.cell j) p⟩

/-- Only a commit and the inserts of a login change committed rows. -/
theorem Effect.rows (h : Effect s p k k' s') :
    SameRows s s' ∨ (s' = s.commit p ∧ (k' = .done ∨ k' = .rotated)) ∨
    (∃ user outletId fresh row, k = .loginSession user outletId fresh ∧
      s.sessionAt fresh.sessionId = none ∧
      s' = (s.writeSession p fresh.sessionId row).commit p) ∨
    ∃ user outletId fresh row, k = .loginToken user outletId fresh ∧ row.rotatedFromId = none ∧
      s' = (s.writeToken p fresh.selector row).commit p := by
  cases h with
  | wait => exact .inl (SameRows.refl s)
  | read hin hplain htokens hsessions => exact .inl (SameRows.congr htokens hsessions)
  | pass hk hin hplain hsetting htokens hsessions => exact .inl (SameRows.congr htokens hsessions)
  | find => exact .inl (SameRows.refl s)
  | consume => exact .inl ⟨tokenAt_writeToken s p _ _, fun _ => rfl⟩
  | touch => exact .inl ⟨fun _ => rfl, sessionAt_writeSession s p _ _⟩
  | rotate => exact .inl ⟨tokenAt_writeToken s p _ _, fun _ => rfl⟩
  | writeToken => exact .inl ⟨tokenAt_writeToken s p _ _, fun _ => rfl⟩
  | writeSession => exact .inl ⟨fun _ => rfl, sessionAt_writeSession s p _ _⟩
  | commit hin hk' => exact .inr (.inl ⟨rfl, hk'⟩)
  | rollback => exact .inl (SameRows.rollback s p)
  | insertSession hstate hnone => exact .inr (.inr (.inl ⟨_, _, _, _, hstate, hnone, rfl⟩))
  | insertToken hstate => exact .inr (.inr (.inr ⟨_, _, _, _, hstate, rfl, rfl⟩))

/-- A deleted session stays as it is. -/
theorem Chained.deleted_effect (h : Chained s calls) (hk : calls p = some k)
    (heffect : Effect s p k k' s') {j : Id} {session : Session}
    (hsession : s.sessionAt j = some session) (hdeleted : session.deletedAt ≠ none) :
    s'.sessionAt j = some session := by
  obtain hsame | ⟨rfl, -⟩ | ⟨user, outletId, fresh, row, hstate, hnone, rfl⟩ |
    ⟨user, outletId, fresh, row, hstate, -, rfl⟩ := heffect.rows
  · exact (hsame.2 j).trans hsession
  · have hheld : ¬ (s.sessions.cell j).heldBy p := by
      rintro ⟨⟨q, w⟩, hlock, rfl⟩
      obtain ⟨-, found, -, hfound, hlive, -⟩ := h.sessionLock j _ w hlock
      rw [hsession] at hfound
      cases hfound
      exact hdeleted hlive
    show ((s.sessions.cell j).commit p).committed = some session
    rw [Cell.commit_of_not_heldBy hheld]
    exact hsession
  · subst hstate
    have hj : j ≠ fresh.sessionId := by
      rintro rfl
      rw [hnone] at hsession
      cases hsession
    rw [AuthStore.sessionAt, cell_insertSession (h.free hk rfl).2, if_neg hj]
    exact hsession
  · subst hstate
    show ((s.sessions.cell j).commit p).committed = some session
    rw [Cell.commit_of_not_heldBy ((h.free hk rfl).2 j)]
    exact hsession

/-- A token is there already, or a login inserts it, or a rotation of a session that is not
deleted. -/
theorem Chained.token_effect (h : Chained s calls) (hk : calls p = some k)
    (heffect : Effect s p k k' s') {j : Id} {row' : RefreshToken}
    (hrow' : s'.tokenAt j = some row') :
    (∃ row, s.tokenAt j = some row ∧ SameToken row row') ∨ row'.rotatedFromId = none ∨
    ∃ sessionId session, row'.sessionId = some sessionId ∧
      s.sessionAt sessionId = some session ∧ session.deletedAt = none := by
  obtain hsame | ⟨rfl, -⟩ | ⟨user, outletId, fresh, row, hstate, -, rfl⟩ |
    ⟨user, outletId, fresh, row, hstate, hfrom, rfl⟩ := heffect.rows
  · exact .inl ⟨row', (hsame.1 j).symm.trans hrow', SameToken.refl row'⟩
  · obtain ⟨row, hrow, hsame, -⟩ | ⟨r, row, sessionId, hcall, -, -, rfl⟩ := h.row_commit hrow'
    · exact .inl ⟨row, hrow, hsame⟩
    · obtain ⟨-, -, session, hsession, hlive⟩ := h.stands p _ hcall
      exact .inr (.inr ⟨sessionId, session, rfl, hsession, hlive⟩)
  · subst hstate
    have hcell : ((s.tokens.cell j).commit p).committed = some row' := hrow'
    rw [Cell.commit_of_not_heldBy ((h.free hk rfl).1 j)] at hcell
    exact .inl ⟨row', hcell, SameToken.refl row'⟩
  · subst hstate
    rw [AuthStore.tokenAt, cell_insertToken (h.free hk rfl).1] at hrow'
    by_cases hj : j = fresh.selector
    · rw [if_pos hj] at hrow'
      cases hrow'
      exact .inr (.inl hfrom)
    · rw [if_neg hj] at hrow'
      exact .inl ⟨row', hrow', SameToken.refl row'⟩

theorem start_plain (request : AuthRequest) :
    request.start.plain = true ∧ request.start.inTransaction = false := by
  cases request with
  | login email password fresh => exact ⟨rfl, rfl⟩
  | refresh credentials fresh => exact ⟨rfl, rfl⟩
  | switchOutlet request fresh => exact ⟨rfl, rfl⟩
  | logout token => exact ⟨rfl, rfl⟩
  | setStatus request => exact ⟨rfl, rfl⟩
  | setUserOutlets tenantId userId outletIds => exact ⟨rfl, rfl⟩

theorem Chained.spawn (h : Chained s calls) (hp : calls p = none) (request : AuthRequest) :
    Chained s (Function.update calls p (some request.start)) := by
  obtain ⟨hplain, -⟩ := start_plain request
  refine h.moveOpen (fun _ => rfl) (fun _ => rfl) (fun q _ => Kept.congr rfl rfl) ?_ ?_
    (stands_of_plain hplain s p) (plain_ne_login hplain)
  · intro j q w hlock
    refine .inr ⟨?_, hlock⟩
    rintro rfl
    obtain ⟨⟨call, hcall, -⟩, -⟩ := h.tokenLock j q w hlock
    rw [hp] at hcall
    cases hcall
  · intro j q w hlock
    refine .inr ⟨?_, hlock⟩
    rintro rfl
    obtain ⟨⟨call, hcall, -⟩, -⟩ := h.sessionLock j q w hlock
    rw [hp] at hcall
    cases hcall

/-- A database in which nobody has logged in yet. -/
def opening (tenants : List Tenant) (users : List User) (outlets : List Outlet)
    (userOutlets : List UserOutlet) : AuthStore where
  tenants := .stored Tenant.id tenants
  users := .stored User.id users
  outlets := outlets
  userOutlets := .stored (fun row => (row.userId, row.outletId)) userOutlets
  sessions := .stored Session.sessionId []
  tokens := .stored RefreshToken.tokenSelector []

theorem opening_chained (tenants : List Tenant) (users : List User) (outlets : List Outlet)
    (userOutlets : List UserOutlet) :
    Chained (opening tenants users outlets userOutlets) fun _ => none where
  selector := fun _ _ hrow => nomatch hrow
  predecessor := fun _ _ _ hrow => nomatch hrow
  successor := fun _ _ _ _ _ hrow => nomatch hrow
  single := fun _ _ _ _ _ hrow => nomatch hrow
  session := fun _ _ _ hrow => nomatch hrow
  tokenLock := fun _ _ _ hlock => nomatch hlock
  sessionLock := fun _ _ _ hlock => nomatch hlock
  stands := fun _ _ hcall => nomatch hcall
  waits := fun _ _ _ _ hcall => nomatch hcall
  logins := fun _ _ _ _ _ _ _ _ hcall => nomatch hcall

theorem run_chained (tenants : List Tenant) (users : List User) (outlets : List Outlet)
    (userOutlets : List UserOutlet) (es : List AuthEvent) :
    Chained ((authCalls verify).run (.idle (opening tenants users outlets userOutlets)) es).store
      ((authCalls verify).run (.idle (opening tenants users outlets userOutlets)) es).at_ := by
  refine System.run_invariant (authCalls verify) ?_ ?_ ?_ ?_ es
    (opening_chained tenants users outlets userOutlets)
  · intro s calls p request h hp
    exact h.spawn hp request
  · intro s calls p c k h hk
    exact h.effect hk (next_effect verify c s p k)
  · intro s calls o _
    cases o
  · intro s calls p k h hk
    exact h.rollback trivial nofun

/-- Tokens that were rotated after `before` are of other sessions. -/
def NoRotationSince (before now : AuthStore) (sessionId : Id) : Prop :=
  ∀ k row, now.tokenAt k = some row → row.sessionId = some sessionId →
    row.rotatedFromId ≠ none → before.tokenAt k ≠ none

theorem run_noRotationSince {sessionId : Id} {session : Session} (es : List AuthEvent)
    {w : World AuthStore AuthCall} (h : Chained w.store w.at_)
    (hsession : w.store.sessionAt sessionId = some session) (hdeleted : session.deletedAt ≠ none) :
    NoRotationSince w.store ((authCalls verify).run w es).store sessionId := by
  have hrun := System.run_invariant (authCalls verify)
    (I := fun s calls => Chained s calls ∧ s.sessionAt sessionId = some session ∧
      NoRotationSince w.store s sessionId) ?_ ?_ ?_ ?_ es
    ⟨h, hsession, fun k row hrow _ _ => by rw [hrow]; exact Option.some_ne_none row⟩
  · exact hrun.2.2
  · intro s calls p request hs hp
    exact ⟨hs.1.spawn hp request, hs.2⟩
  · intro s calls p c k hs hk
    obtain ⟨hchained, hthere, hsince⟩ := hs
    have heffect := next_effect verify c s p k
    refine ⟨hchained.effect hk heffect,
      hchained.deleted_effect hk heffect hthere hdeleted, fun j row' hrow' hof hfrom => ?_⟩
    obtain ⟨row, hrow, hsame⟩ | hnone | ⟨sessionId', session', hof', hsession', hlive⟩ :=
      hchained.token_effect hk heffect hrow'
    · exact hsince j row hrow (hsame.session.symm.trans hof)
        fun hnone => hfrom (hsame.rotatedFrom.trans hnone)
    · exact absurd hnone hfrom
    · rw [hof] at hof'
      cases hof'
      rw [hthere] at hsession'
      cases hsession'
      exact absurd hlive hdeleted
  · intro s calls o _
    cases o
  · intro s calls p k hs hk
    obtain ⟨hchained, hthere, hsince⟩ := hs
    have hsame := SameRows.rollback s p
    refine ⟨hchained.rollback trivial nofun, (hsame.2 sessionId).trans hthere,
      fun j row hrow => hsince j row ((hsame.1 j).symm.trans hrow)⟩

/-- A refresh or a switch of the outlet, up to the end of its rotation. -/
def AuthCall.rotates : AuthCall → Bool
  | .refreshFind .. | .refreshTenant .. | .refreshReads .. => true
  | .switchFind .. | .switchAssignment .. => true
  | .rotateFind _ | .rotateConsume .. | .rotateSession .. | .rotateInsert .. => true
  | .rotateCommit .. => true
  | _ => false

/-- A call that has succeeded, or crashed, is not rejected any more. -/
def AuthCall.settled : AuthCall → Bool
  | .rotated | .done | .stopped => true
  | _ => false

theorem run_settled {q : Nat} (es : List AuthEvent) {w : World AuthStore AuthCall} {k : AuthCall}
    (hk : w.at_ q = some k) (hsettled : k.settled = true) :
    ∃ k', ((authCalls verify).run w es).at_ q = some k' ∧ k'.settled = true := by
  have hother {calls : Nat → Option AuthCall} {p : Nat} {new : AuthCall}
      (hcalls : ∃ k, calls q = some k ∧ k.settled = true)
      (hnew : calls p ≠ none → p = q → new.settled = true) (hp : p = q → calls p ≠ none) :
      ∃ k, Function.update calls p (some new) q = some k ∧ k.settled = true := by
    by_cases hq : q = p
    · subst hq
      exact ⟨new, Function.update_self .., hnew (hp rfl) rfl⟩
    · rw [Function.update_of_ne hq]
      exact hcalls
  refine System.run_invariant (authCalls verify)
    (I := fun _ calls => ∃ k, calls q = some k ∧ k.settled = true) ?_ ?_ ?_ ?_ es ⟨k, hk, hsettled⟩
  · intro s calls p request hcalls hp
    have hne : p ≠ q := by
      rintro rfl
      obtain ⟨k, hk, -⟩ := hcalls
      rw [hp] at hk
      cases hk
    exact hother hcalls (fun _ heq => absurd heq hne) fun heq => absurd heq hne
  · intro s calls p c k hcalls hcall
    refine hother hcalls (fun _ heq => ?_) fun _ => by rw [hcall]; exact Option.some_ne_none k
    subst heq
    obtain ⟨k', hk', hs⟩ := hcalls
    rw [hcall] at hk'
    cases hk'
    cases k with
    | rotated => rfl
    | done => rfl
    | stopped => rfl
    | _ => cases hs
  · intro s calls o _
    cases o
  · intro s calls p k hcalls hcall
    exact hother hcalls (fun _ _ => rfl) fun _ => by rw [hcall]; exact Option.some_ne_none k

/-- An event of a refresh or a switch that is rejected in the end leaves the rows as they
are. -/
theorem rejected_sameRows {w : World AuthStore AuthCall} {k : AuthCall} (hk : w.at_ p = some k)
    (hrotates : k.rotates = true) (e : AuthEvent) (he : e = .crash p ∨ ∃ c, e = .step p c)
    (after : List AuthEvent)
    (hrejected : ((authCalls verify).run ((authCalls verify).exec w e) after).at_ p =
      some .rejected) :
    SameRows w.store ((authCalls verify).exec w e).store := by
  obtain ⟨p', r, rfl, -⟩ | ⟨p', c, k', rfl, -, hk', hstore, hat⟩ | ⟨o, -⟩ |
    ⟨p', k', rfl, hk', hstore, hat⟩ | ⟨hstore, -⟩ := (authCalls verify).exec_cases w e
  · obtain he | ⟨c, he⟩ := he
    · cases he
    · cases he
  · have hp : p' = p := by
      obtain he | ⟨c', he⟩ := he
      · cases he
      · cases he
        rfl
    subst hp
    rw [hk] at hk'
    cases hk'
    rw [hstore]
    have heffect := next_effect verify c w.store p' k
    obtain hsame | ⟨-, hend⟩ | ⟨user, outletId, fresh, row, rfl, -⟩ |
      ⟨user, outletId, fresh, row, rfl, -⟩ := heffect.rows
    · exact hsame
    · have hnow : ((authCalls verify).exec w (.step p' c)).at_ p' =
          some (k.next verify p' c w.store).1 := by
        rw [hat, Function.update_self]
        rfl
      have hsettled : (k.next verify p' c w.store).1.settled = true := by
        rcases hend with hend | hend
        · rw [hend]
          rfl
        · rw [hend]
          rfl
      obtain ⟨k'', hk'', hs⟩ := run_settled verify after hnow hsettled
      rw [hrejected] at hk''
      cases hk''
      cases hs
    · cases hrotates
    · cases hrotates
  · cases o
  · rw [hstore]
    exact SameRows.rollback w.store p'
  · rw [hstore]
    exact SameRows.refl w.store

/-- In every run of logins, refreshes, switches, logouts and deactivations: a token is
rotated into one other at most, a session has one token at most that is not revoked, a
session that is deleted sees no rotation any more, and a rejected rotation changes no row. -/
theorem rotation_linear (tenants : List Tenant) (users : List User) (outlets : List Outlet)
    (userOutlets : List UserOutlet) :
    let reached (es : List AuthEvent) :=
      (authCalls verify).run (.idle (opening tenants users outlets userOutlets)) es
    (∀ es old j k row row', (reached es).store.tokenAt j = some row →
      (reached es).store.tokenAt k = some row' → row.rotatedFromId = some old →
      row'.rotatedFromId = some old → j = k) ∧
    (∀ es sessionId j k row row', (reached es).store.tokenAt j = some row →
      (reached es).store.tokenAt k = some row' → row.sessionId = some sessionId →
      row'.sessionId = some sessionId → row.revokedAt = none → row'.revokedAt = none → j = k) ∧
    (∀ before after sessionId session,
      (reached before).store.sessionAt sessionId = some session → session.deletedAt ≠ none →
      NoRotationSince (reached before).store (reached (before ++ after)).store sessionId) ∧
    ∀ before p e after k, (reached before).at_ p = some k → k.rotates = true →
      (e = .crash p ∨ ∃ c, e = .step p c) →
      (reached (before ++ e :: after)).at_ p = some .rejected →
      SameRows (reached before).store (reached (before ++ [e])).store := by
  intro reached
  have hchained (es : List AuthEvent) : Chained (reached es).store (reached es).at_ :=
    run_chained verify tenants users outlets userOutlets es
  have happend (before after : List AuthEvent) :
      reached (before ++ after) = (authCalls verify).run (reached before) after :=
    (authCalls verify).run_append _ before after
  refine ⟨?_, ?_, ?_, ?_⟩
  · intro es old j k row row' hrow hrow' hfrom hfrom'
    exact (hchained es).successor j k row row' old hrow hrow' hfrom hfrom'
  · intro es sessionId j k row row' hrow hrow' hof hof' hopen hopen'
    exact (hchained es).single j k row row' sessionId hrow hrow' hopen hopen' hof hof'
  · intro before after sessionId session hsession hdeleted
    rw [happend]
    exact run_noRotationSince verify after (hchained before) hsession hdeleted
  · intro before p e after k hk hrotates he hrejected
    rw [happend] at hrejected ⊢
    exact rejected_sameRows verify hk hrotates e he after hrejected

end Auth
end ERP
