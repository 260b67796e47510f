import ERP.Auth.Placement
import ERP.Auth.RotationRuns

/-!
# Runs that place outlets

Every committed session and token that counts names an assigned outlet, as long as a call
that places one finds it assigned then and no `setUserOutlets` that drops it is past the row.
-/

namespace ERP
namespace Auth

open Lib

/-- What a call knows of the outlet that it carries. -/
def Informed (u : OutletRows) : AuthCall → Prop
  | .loginSession user outletId _ | .loginToken user outletId _ =>
      Known u user.id user.tenantId outletId
  | .refreshReads row _ _ _ (some (some session)) =>
        Known u row.userId row.tenantId session.outletId
  | .rotateFind r => ∃ outletId, r.outletId = some outletId ∧ Known u r.userId r.tenantId outletId
  | .rotateConsume r row _ | .rotateSession r row _ | .rotateInsert r row _
  | .rotateCommit r row _ =>
      row.userId = r.userId ∧ row.tenantId = r.tenantId ∧
        ∃ outletId, r.outletId = some outletId ∧ Known u r.userId r.tenantId outletId
  | _ => True

/-- What holds between any two steps. -/
structure Placed (s : AuthStore) (calls : Nat → Option AuthCall) : Prop where
  rowKey : ∀ i row, s.rowAt i = some row → (row.userId, row.outletId) = i
  rowLock : ∀ i q w, (s.userOutlets.cell i).lock = some ⟨q, w⟩ →
    ∃ call, calls q = some call ∧ RowWrite s.userOutlets call i w
  informed : ∀ q call, calls q = some call → Informed s.userOutlets call
  sessions : PlacedIn sessionPlaces s.userOutlets s.sessions calls
  tokens : PlacedIn tokenPlaces s.userOutlets s.tokens calls

variable {s s' : AuthStore} {u u' : OutletRows} {calls : Nat → Option AuthCall} {p : Nat}
  {k k' : AuthCall}

/-- Assignments are not taken away from the table, nor moved to another tenant. -/
def Grown (u u' : OutletRows) : Prop :=
  ∀ i row, (u.cell i).committed = some row →
    ∃ row', (u'.cell i).committed = some row' ∧ row'.tenantId = row.tenantId

theorem Grown.of_committed (h : ∀ i, (u'.cell i).committed = (u.cell i).committed) : Grown u u' :=
  fun i row hrow => ⟨row, (h i).trans hrow, rfl⟩

theorem Known.grown {userId tenantId : Id} {outletId : Option Id}
    (h : Known u userId tenantId outletId)
    (hgrown : Grown u u') : Known u' userId tenantId outletId := by
  intro id hid
  obtain ⟨row, hrow, htenant⟩ := h id hid
  obtain ⟨row', hrow', htenant'⟩ := hgrown _ row hrow
  exact ⟨row', hrow', htenant'.trans htenant⟩

theorem Informed.grown (h : Informed u k) (hgrown : Grown u u') : Informed u' k := by
  cases k with
  | loginSession user outletId fresh => exact Known.grown h hgrown
  | loginToken user outletId fresh => exact Known.grown h hgrown
  | refreshReads row secret fresh user session =>
      obtain _ | _ | session := session
      · exact trivial
      · exact trivial
      · exact Known.grown h hgrown
  | rotateFind r =>
      obtain ⟨outletId, hr, hknown⟩ := h
      exact ⟨outletId, hr, hknown.grown hgrown⟩
  | rotateConsume r row sessionId =>
      obtain ⟨huser, htenant, outletId, hr, hknown⟩ := h
      exact ⟨huser, htenant, outletId, hr, hknown.grown hgrown⟩
  | rotateSession r row sessionId =>
      obtain ⟨huser, htenant, outletId, hr, hknown⟩ := h
      exact ⟨huser, htenant, outletId, hr, hknown.grown hgrown⟩
  | rotateInsert r row sessionId =>
      obtain ⟨huser, htenant, outletId, hr, hknown⟩ := h
      exact ⟨huser, htenant, outletId, hr, hknown.grown hgrown⟩
  | rotateCommit r row sessionId =>
      obtain ⟨huser, htenant, outletId, hr, hknown⟩ := h
      exact ⟨huser, htenant, outletId, hr, hknown.grown hgrown⟩
  | _ => exact trivial

theorem informed_of_quiet (h : k.carries = false) (u : OutletRows) : Informed u k := by
  cases k with
  | loginSession user outletId fresh => cases h
  | loginToken user outletId fresh => cases h
  | refreshReads row secret fresh user session =>
      obtain _ | _ | session := session
      · exact trivial
      · exact trivial
      · cases h
  | rotateFind r => cases h
  | rotateConsume r row sessionId => cases h
  | rotateSession r row sessionId => cases h
  | rotateInsert r row sessionId => cases h
  | rotateCommit r row sessionId => cases h
  | _ => exact trivial

theorem RowWrite.congr {i : Id × Id} {w : Option (Option UserOutlet)} (h : RowWrite u k i w)
    (hcommitted : (u'.cell i).committed = (u.cell i).committed) : RowWrite u' k i w := by
  obtain ⟨r, row, hsets, hw, hkey, huser, htenant, hold, hdropped⟩ := h
  refine ⟨r, row, hsets, hw, hkey, huser, htenant, ?_, hdropped⟩
  rw [hcommitted]
  exact hold

theorem Placed.own (h : Placed s calls) (hk : calls p = some k) {i : Id × Id}
    {w : Option (Option UserOutlet)} (hlock : (s.userOutlets.cell i).lock = some ⟨p, w⟩) :
    RowWrite s.userOutlets k i w := by
  obtain ⟨call, hcall, hwrite⟩ := h.rowLock i p w hlock
  rw [hk] at hcall
  cases hcall
  exact hwrite

/-- Only `setUserOutlets` holds assignments. -/
theorem Placed.free (h : Placed s calls) (hk : calls p = some k) (hcalm : k.setting = false)
    (i : Id × Id) : ¬ (s.userOutlets.cell i).heldBy p := by
  rintro ⟨⟨q, w⟩, hlock, rfl⟩
  obtain ⟨r, -, hsets, -⟩ := h.own hk hlock
  rw [setting_of_sets hsets] at hcalm
  cases hcalm

theorem assigned_columns {userId tenantId : Id} {row : UserOutlet}
    (h : s.assigned userId tenantId row = true) :
    row.userId = userId ∧ row.tenantId = tenantId := by
  obtain ⟨huser, htenant, -⟩ := of_decide_eq_true h
  exact ⟨huser, htenant⟩

/-- What a call carries it has read from an assignment, or from a session. -/
theorem Placed.told (h : Placed s calls) (hk : calls p = some k) (hcalm : k.setting = false)
    (hfree : ∀ j, ¬ (s.sessions.cell j).heldBy p) (htold : Told s p k k') :
    Informed s.userOutlets k' := by
  have hvisible (i : Id × Id) : (s.userOutlets.cell i).visible p = s.rowAt i :=
    Cell.visible_of_not_heldBy (h.free hk hcalm i)
  cases htold with
  | quiet hquiet => exact informed_of_quiet hquiet s.userOutlets
  | login =>
      intro id hid
      obtain ⟨row, hfind, rfl⟩ := Option.map_eq_some_iff.mp hid
      obtain ⟨huser, htenant⟩ := assigned_columns (List.find?_some hfind)
      obtain ⟨i, -, hrow⟩ := LockedTable.mem_read.mp (List.mem_of_find?_eq_some hfind)
      rw [hvisible] at hrow
      rw [← huser, h.rowKey i row hrow]
      exact ⟨row, hrow, htenant⟩
  | @refresh row secret fresh user user' session session' now hsession =>
      have hknown (found : Session) (hfound : session' = some (some found)) :
          Known s.userOutlets row.userId row.tenantId found.outletId := by
        obtain rfl | hsession := hsession
        · subst hfound
          exact h.informed p _ hk
        · rw [hfound] at hsession
          obtain ⟨sessionId, -, hfilter⟩ := Option.bind_eq_some_iff.mp
            (Option.some.inj hsession).symm
          obtain ⟨hcommitted, hlive⟩ := Option.filter_eq_some_iff.mp hfilter
          rw [Cell.visible_of_not_heldBy (hfree sessionId)] at hcommitted
          obtain ⟨-, huser, htenant, hnotDeleted⟩ := of_decide_eq_true hlive
          intro id hid
          obtain ⟨⟨assignment, hassignment, hin, -⟩, -⟩ := h.sessions.safe sessionId found
            hcommitted (decide_eq_true hnotDeleted) id hid
          rw [← huser, ← htenant]
          exact ⟨assignment, hassignment, hin⟩
      obtain _ | user' := user'
      · obtain _ | _ | found := session'
        · exact trivial
        · exact trivial
        · exact hknown found rfl
      · obtain _ | _ | found := session'
        · exact trivial
        · cases user' <;> exact trivial
        · cases user' with
          | false => exact trivial
          | true => exact ⟨found.outletId, rfl, hknown found rfl⟩
  | @switch request selector secret fresh expiresAt hassigned =>
      refine ⟨some request.outletId, rfl, fun id hid => ?_⟩
      cases hid
      rw [hvisible] at hassigned
      cases hrow : s.rowAt (request.userId, request.outletId) with
      | none =>
          rw [hrow] at hassigned
          cases hassigned
      | some row =>
          rw [hrow] at hassigned
          exact ⟨row, hrow, (assigned_columns hassigned).2⟩

/-- A call moves on and no committed row changes. -/
theorem Placed.move (h : Placed s calls)
    (hrows : ∀ i, (s'.userOutlets.cell i).committed = (s.userOutlets.cell i).committed)
    (hrowLock : ∀ i q w, (s'.userOutlets.cell i).lock = some ⟨q, w⟩ →
      q = p ∧ RowWrite s.userOutlets k' i w ∨ q ≠ p ∧ (s.userOutlets.cell i).lock = some ⟨q, w⟩)
    (hinformed : Informed s.userOutlets k')
    (hsessions : Moved sessionPlaces s.sessions s'.sessions p k')
    (htokens : Moved tokenPlaces s.tokens s'.tokens p k')
    (hownSession : ∀ j row id, s.sessionAt j = some row → row.deletedAt = none →
      row.outletId = some id → Drops s'.userOutlets p row.userId id →
      k'.reachesSession j = true ∨ (s'.sessions.cell j).heldBy p)
    (hownToken : ∀ j row id, s.tokenAt j = some row → row.revokedAt = none →
      row.outletId = some id → Drops s'.userOutlets p row.userId id →
      k'.reachesToken j = true ∨ (s'.tokens.cell j).heldBy p) :
    Placed s' (Function.update calls p (some k')) where
  rowKey := by
    intro i row hrow
    exact h.rowKey i row ((hrows i).symm.trans hrow)
  rowLock := by
    intro i q w hlock
    obtain ⟨rfl, hwrite⟩ | ⟨hq, hlock⟩ := hrowLock i q w hlock
    · exact ⟨k', Function.update_self .., hwrite.congr (hrows i)⟩
    · rw [Function.update_of_ne hq]
      obtain ⟨call, hcall, hwrite⟩ := h.rowLock i q w hlock
      exact ⟨call, hcall, hwrite.congr (hrows i)⟩
  informed := by
    intro q call hcall
    by_cases hq : q = p
    · subst hq
      rw [Function.update_self] at hcall
      cases hcall
      exact hinformed.grown (Grown.of_committed hrows)
    · rw [Function.update_of_ne hq] at hcall
      exact (h.informed q call hcall).grown (Grown.of_committed hrows)
  sessions := by
    refine h.sessions.move hsessions hrows ?_ ?_
    · rintro q userId id hq ⟨row, hlock, hdeleted⟩
      obtain ⟨rfl, -⟩ | ⟨-, hlock⟩ := hrowLock _ q _ hlock
      · exact absurd rfl hq
      · exact ⟨row, hlock, hdeleted⟩
    · intro j row id hrow hopen hid hdrop
      exact hownSession j row id hrow (of_decide_eq_true hopen) hid hdrop
  tokens := by
    refine h.tokens.move htokens hrows ?_ ?_
    · rintro q userId id hq ⟨row, hlock, hdeleted⟩
      obtain ⟨rfl, -⟩ | ⟨-, hlock⟩ := hrowLock _ q _ hlock
      · exact absurd rfl hq
      · exact ⟨row, hlock, hdeleted⟩
    · intro j row id hrow hopen hid hdrop
      exact hownToken j row id hrow (of_decide_eq_true hopen) hid hdrop

/-- A step of a call that holds no assignment. -/
theorem Placed.calm (h : Placed s calls) (hk : calls p = some k) (hcalm : k.setting = false)
    (hrows : s'.userOutlets = s.userOutlets) (hinformed : Informed s.userOutlets k')
    (hsessions : Moved sessionPlaces s.sessions s'.sessions p k')
    (htokens : Moved tokenPlaces s.tokens s'.tokens p k') :
    Placed s' (Function.update calls p (some k')) := by
  have hfree := h.free hk hcalm
  have hnotDrops {userId id : Id} : ¬ Drops s'.userOutlets p userId id := by
    rw [hrows]
    rintro ⟨row, hlock, -⟩
    exact hfree _ ⟨_, hlock, rfl⟩
  refine h.move (fun i => by rw [hrows]) ?_ hinformed hsessions htokens
    (fun _ _ _ _ _ _ hdrop => absurd hdrop hnotDrops)
    (fun _ _ _ _ _ _ hdrop => absurd hdrop hnotDrops)
  intro i q w hlock
  rw [hrows] at hlock
  refine .inr ⟨?_, hlock⟩
  rintro rfl
  exact hfree i ⟨_, hlock, rfl⟩

theorem Moved.rest {V : Type} {P : Places V} {t : LockedTable Id V}
    (hfree : ∀ j, ¬ (t.cell j).heldBy p) : Moved P t t p k' :=
  Moved.same fun j _ hlock => absurd ⟨_, hlock, rfl⟩ (hfree j)

theorem not_granted_session
    (h : k.plain = true ∨ ∃ r row sessionId, k = .rotateSession r row sessionId)
    (j : Id) (row : Session) : ¬ sessionPlaces.granted k j row := by
  rintro ⟨r, old, sessionId, rfl | rfl, -⟩
  · obtain h | ⟨_, _, _, h⟩ := h
    · cases h
    · cases h
  · obtain h | ⟨_, _, _, h⟩ := h
    · cases h
    · cases h

theorem not_granted_token (h : ∀ r row sessionId, k ≠ .rotateCommit r row sessionId)
    (j : Id) (row : RefreshToken) : ¬ tokenPlaces.granted k j row := by
  rintro ⟨r, old, sessionId, hk, -⟩
  exact h r old sessionId hk

theorem informed_of_plain (hplain : k.plain = true) (hin : k.inTransaction = true)
    (u : OutletRows) : Informed u k := by
  refine informed_of_quiet ?_ u
  cases k with
  | loginSession user outletId fresh => cases hin
  | loginToken user outletId fresh => cases hin
  | refreshReads row secret fresh user session => cases hin
  | rotateFind r => cases hin
  | rotateConsume r row sessionId => cases hin
  | rotateSession r row sessionId => cases hplain
  | rotateInsert r row sessionId => cases hplain
  | rotateCommit r row sessionId => cases hplain
  | _ => rfl

/-- The condition on a step that places an outlet. -/
def AuthCall.offers (s : AuthStore) (calls : Nat → Option AuthCall) (p : Nat) : AuthCall → Prop
  | .loginSession user outletId fresh =>
      s.sessionAt fresh.sessionId = none → (s.sessions.cell fresh.sessionId).available p = true →
        Offered s.userOutlets calls user.id outletId (AuthCall.reachesSession fresh.sessionId)
  | .loginToken user outletId fresh =>
      s.tokenAt fresh.selector = none → (s.tokens.cell fresh.selector).available p = true →
        Offered s.userOutlets calls user.id outletId (AuthCall.reachesToken fresh.selector)
  | .rotateCommit r row sessionId =>
      Offered s.userOutlets calls r.userId (r.outlet row) (AuthCall.reachesSession sessionId)
  | _ => True

theorem reachesToken_of_session {i j : Id} (h : k.reachesSession i = true) :
    k.reachesToken j = true := by
  cases k with
  | outletsDeleteRows r keys => rfl
  | outletsFind r todo => rfl
  | outletsRestore r id todo => rfl
  | outletsCreate r id todo => rfl
  | outletsSessions r => rfl
  | outletsSessionRows r keys => rfl
  | _ => cases h

theorem not_reaches_of_commits (h : k.commits = true) (j : Id) :
    k.reachesSession j = false ∧ k.reachesToken j = false := by
  cases k with
  | rotateCommit r row sessionId => exact ⟨rfl, rfl⟩
  | logoutCommit => exact ⟨rfl, rfl⟩
  | statusCommit => exact ⟨rfl, rfl⟩
  | outletsCommit => exact ⟨rfl, rfl⟩
  | _ => cases h

/-- What a commit leaves of the assignments. -/
theorem Placed.commit_rows (h : Placed s calls) (hk : calls p = some k) (i : Id × Id)
    {row' : UserOutlet} (hrow' : (s.commit p).rowAt i = some row') :
    (row'.userId, row'.outletId) = i := by
  have hvisible : (s.userOutlets.cell i).visible p = some row' := by
    rw [← Cell.commit_committed]
    exact hrow'
  by_cases hheld : (s.userOutlets.cell i).heldBy p
  · obtain ⟨⟨q, w⟩, hlock, rfl⟩ := hheld
    obtain ⟨r, row, -, rfl, hkey, -⟩ := h.own hk hlock
    rw [Cell.visible_of_write hlock] at hvisible
    cases hvisible
    exact hkey
  · rw [Cell.visible_of_not_heldBy hheld] at hvisible
    exact h.rowKey i row' hvisible

theorem Placed.commit_grown (h : Placed s calls) (hk : calls p = some k) :
    Grown s.userOutlets (s.commit p).userOutlets := by
  intro i row hrow
  show ∃ row', ((s.userOutlets.cell i).commit p).committed = some row' ∧ _
  rw [Cell.commit_committed]
  by_cases hheld : (s.userOutlets.cell i).heldBy p
  · obtain ⟨⟨q, w⟩, hlock, rfl⟩ := hheld
    obtain ⟨r, row', -, rfl, -, -, htenant, hold, -⟩ := h.own hk hlock
    rw [Cell.visible_of_write hlock]
    exact ⟨row', rfl, htenant.trans (hold row hrow).symm⟩
  · rw [Cell.visible_of_not_heldBy hheld]
    exact ⟨row, hrow, rfl⟩

/-- The transaction of a call commits. -/
theorem Placed.commit (h : Placed s calls) (hk : calls p = some k) (hcommits : k.commits = true)
    (hoffers : k.offers s calls p) (hquiet : k'.carries = false) :
    Placed (s.commit p) (Function.update calls p (some k')) where
  rowKey := fun i _ hrow => h.commit_rows hk i hrow
  rowLock := by
    intro i q w hlock
    have hq : q ≠ p := by
      rintro rfl
      exact Cell.not_heldBy_commit (s.userOutlets.cell i) q ⟨_, hlock, rfl⟩
    obtain ⟨hold, hcommitted⟩ := Cell.lock_of_commit hlock
    rw [Function.update_of_ne hq]
    obtain ⟨call, hcall, hwrite⟩ := h.rowLock i q w hold
    exact ⟨call, hcall, hwrite.congr hcommitted⟩
  informed := by
    intro q call hcall
    by_cases hq : q = p
    · subst hq
      rw [Function.update_self] at hcall
      cases hcall
      exact informed_of_quiet hquiet _
    · rw [Function.update_of_ne hq] at hcall
      exact (h.informed q call hcall).grown (h.commit_grown hk)
  sessions := by
    refine h.sessions.commit hk (fun _ _ hlock => h.own hk hlock)
      (fun j => (not_reaches_of_commits hcommits j).1) ?_
    rintro - j row ⟨r, old, sessionId, rfl | rfl, rfl, huser, htenant, houtlet⟩ -
    · cases hcommits
    · obtain ⟨-, -, outletId, hr, hknown⟩ := h.informed p _ hk
      have hof : r.outlet old = outletId := by
        rw [Rotation.outlet, hr, Option.getD_some]
      refine ⟨?_, ?_⟩
      · show Known s.userOutlets row.userId row.tenantId row.outletId
        rw [huser, htenant, houtlet, hof]
        exact hknown
      · show Offered s.userOutlets calls row.userId row.outletId _
        rw [huser, houtlet]
        exact hoffers
  tokens := by
    refine h.tokens.commit hk (fun _ _ hlock => h.own hk hlock)
      (fun j => (not_reaches_of_commits hcommits j).2) ?_
    rintro - j row ⟨r, old, sessionId, rfl, rfl, rfl⟩ -
    obtain ⟨huser, htenant, outletId, hr, hknown⟩ := h.informed p _ hk
    have hof : r.outlet old = outletId := by
      rw [Rotation.outlet, hr, Option.getD_some]
    refine ⟨?_, ?_⟩
    · show Known s.userOutlets old.userId old.tenantId (r.outlet old)
      rw [huser, htenant, hof]
      exact hknown
    · show Offered s.userOutlets calls old.userId (r.outlet old) _
      rw [huser]
      intro id hid
      obtain ⟨hassigned, hothers⟩ := hoffers id hid
      exact ⟨hassigned, fun q call hcall hdrop =>
        reachesToken_of_session (hothers q call hcall hdrop)⟩

/-- The transaction of a call is rolled back. -/
theorem Placed.rollback (h : Placed s calls) (hquiet : k'.carries = false) :
    Placed (s.rollback p) (Function.update calls p (some k')) := by
  refine h.move (fun i => Cell.release_committed (s.userOutlets.cell i) p) ?_
    (informed_of_quiet hquiet _) (Moved.rollback sessionPlaces s.sessions p k')
    (Moved.rollback tokenPlaces s.tokens p k')
    (fun _ _ _ _ _ _ hdrop => absurd rfl (Drops.of_rollback hdrop).1)
    (fun _ _ _ _ _ _ hdrop => absurd rfl (Drops.of_rollback hdrop).1)
  intro i q w hlock
  refine .inr ⟨?_, Cell.lock_of_release hlock⟩
  rintro rfl
  exact Cell.not_heldBy_release (s.userOutlets.cell i) q ⟨_, hlock, rfl⟩

/-- A write under a row lock by a call that holds no assignment. -/
theorem Pending.closed {V : Type} {P : Places V} {j : Id} {row : V} (hcalm : k.setting = false)
    (hclosed : P.isOpen row = true → P.granted k j row) : Pending P k j (some (some row)) := by
  refine ⟨row, rfl, fun hsetting => ?_, fun _ => hclosed⟩
  rw [hcalm] at hsetting
  cases hsetting

/-- Every step outside `setUserOutlets`, if it places an outlet that is offered. -/
theorem Placed.effect (h : Placed s calls) (hchained : Chained s calls) (hk : calls p = some k)
    (hcalm : k.setting = false) (hoffers : k.offers s calls p) (heffect : Effect s p k k' s') :
    Placed s' (Function.update calls p (some k')) := by
  have hsessionLocks (hgranted : ∀ j row, sessionPlaces.granted k j row →
      sessionPlaces.granted k' j row) (hsetting : k'.setting = k.setting) (j : Id)
      (w : Option (Option Session)) (hlock : (s.sessions.cell j).lock = some ⟨p, w⟩) :
      Pending sessionPlaces k' j w :=
    (h.sessions.pending hk hlock).next hsetting (hgranted j)
  have htokenLocks (hgranted : ∀ j row, tokenPlaces.granted k j row →
      tokenPlaces.granted k' j row) (hsetting : k'.setting = k.setting) (j : Id)
      (w : Option (Option RefreshToken)) (hlock : (s.tokens.cell j).lock = some ⟨p, w⟩) :
      Pending tokenPlaces k' j w :=
    (h.tokens.pending hk hlock).next hsetting (hgranted j)
  cases heffect with
  | wait => exact System.stop_keeps h hk
  | read hin hplain htokens hsessions hrows htold =>
      obtain ⟨hfreeTokens, hfreeSessions⟩ := hchained.free hk hin
      refine h.calm hk hcalm hrows (h.told hk hcalm hfreeSessions htold) ?_ ?_
      · rw [hsessions]
        exact Moved.rest hfreeSessions
      · rw [htokens]
        exact Moved.rest hfreeTokens
  | pass hplain hin hplain' hsetting htokens hsessions hrows =>
      refine h.calm hk hcalm (hrows hcalm) (informed_of_plain hplain' hin _) ?_ ?_
      · rw [hsessions]
        exact Moved.same (hsessionLocks
          (fun j row hgranted => absurd hgranted (not_granted_session (.inl hplain) j row))
            hsetting)
      · rw [htokens]
        exact Moved.same (htokenLocks
          (fun j row hgranted => absurd hgranted
            (not_granted_token (plain_ne_commit hplain) j row)) hsetting)
  | @find r row sessionId hstate hrow hsession howner =>
      subst hstate
      obtain ⟨hfreeTokens, hfreeSessions⟩ := hchained.free hk rfl
      have hinformed : Informed s.userOutlets (.rotateFind r) := h.informed p _ hk
      exact h.calm hk rfl rfl ⟨howner.1, howner.2, hinformed⟩ (Moved.rest hfreeSessions)
        (Moved.rest hfreeTokens)
  | @consume r row found revoked sessionId hstate havailable hfound hopen hsame hrevoked =>
      subst hstate
      obtain ⟨hfreeTokens, hfreeSessions⟩ := hchained.free hk rfl
      have hinformed : Informed s.userOutlets (.rotateConsume r row sessionId) := h.informed p _ hk
      refine h.calm hk rfl rfl hinformed (Moved.rest hfreeSessions)
        (Moved.write havailable (.closed rfl fun hopen => ?_) fun j w hlock => ?_)
      · exact absurd (of_decide_eq_true hopen) hrevoked
      · exact absurd ⟨_, hlock, rfl⟩ (hfreeTokens j)
  | @touch r row session sessionId hstate havailable hsession hlive =>
      subst hstate
      obtain ⟨-, huser, htenant, -⟩ := of_decide_eq_true hlive
      have hinformed : Informed s.userOutlets (.rotateSession r row sessionId) := h.informed p _ hk
      have hnot (r' : Rotation) (row' : RefreshToken) (sessionId' : Id) :
          AuthCall.rotateSession r row sessionId ≠ .rotateCommit r' row' sessionId' := nofun
      refine h.calm hk rfl rfl hinformed (Moved.write havailable (.closed rfl fun _ => ?_)
        (hsessionLocks ?_ rfl)) (Moved.same (htokenLocks ?_ rfl))
      · exact ⟨r, row, sessionId, .inl rfl, rfl, huser, htenant, rfl⟩
      · exact fun j row hgranted => absurd hgranted
          (not_granted_session (.inr ⟨_, _, _, rfl⟩) j row)
      · exact fun j row hgranted => absurd hgranted (not_granted_token hnot j row)
  | @rotate r row sessionId hstate hnone havailable =>
      subst hstate
      have hinformed : Informed s.userOutlets (.rotateInsert r row sessionId) := h.informed p _ hk
      have hnot (r' : Rotation) (row' : RefreshToken) (sessionId' : Id) :
          AuthCall.rotateInsert r row sessionId ≠ .rotateCommit r' row' sessionId' := nofun
      refine h.calm hk rfl rfl hinformed (Moved.same (hsessionLocks ?_ rfl))
        (Moved.write havailable (.closed rfl fun _ => ?_) (htokenLocks ?_ rfl))
      · rintro j session ⟨r', old, sessionId', hcall | hcall, hgranted⟩
        · cases hcall
          exact ⟨r, row, sessionId, .inr rfl, hgranted⟩
        · cases hcall
      · exact ⟨r, row, sessionId, rfl, rfl, rfl⟩
      · exact fun j row hgranted => absurd hgranted (not_granted_token hnot j row)
  | writeToken hplain hin hplain' hsetting havailable hfound hopen hsame hrevoked =>
      refine h.calm hk hcalm rfl (informed_of_plain hplain' hin _)
        (Moved.same (hsessionLocks ?_ hsetting))
        (Moved.write havailable (.closed (hsetting.trans hcalm) fun hopen => ?_)
          (htokenLocks ?_ hsetting))
      · exact fun j row hgranted => absurd hgranted (not_granted_session (.inl hplain) j row)
      · exact absurd (of_decide_eq_true hopen) (hrevoked hcalm)
      · exact fun j row hgranted =>
          absurd hgranted (not_granted_token (plain_ne_commit hplain) j row)
  | writeSession hplain hin hplain' hsetting havailable hfound hlive hdeleted =>
      refine h.calm hk hcalm rfl (informed_of_plain hplain' hin _)
        (Moved.write havailable (.closed (hsetting.trans hcalm) fun hopen => ?_)
          (hsessionLocks ?_ hsetting)) (Moved.same (htokenLocks ?_ hsetting))
      · exact absurd (of_decide_eq_true hopen) (hdeleted hcalm)
      · exact fun j row hgranted => absurd hgranted (not_granted_session (.inl hplain) j row)
      · exact fun j row hgranted =>
          absurd hgranted (not_granted_token (plain_ne_commit hplain) j row)
  | commit hcommits hk' =>
      have hquiet : k'.carries = false := by
        rcases hk' with rfl | rfl
        · rfl
        · rfl
      exact h.commit hk hcommits hoffers hquiet
  | rollback => exact h.rollback rfl
  | @insertSession user outletId fresh hstate hnone havailable =>
      subst hstate
      obtain ⟨hfreeTokens, hfreeSessions⟩ := hchained.free hk rfl
      have hfree := h.free hk rfl
      have hknown : Known s.userOutlets user.id user.tenantId outletId := h.informed p _ hk
      have hrows : ((s.writeSession p fresh.sessionId
          ⟨fresh.sessionId, user.id, user.tenantId, outletId, none⟩).commit p).userOutlets =
          s.userOutlets := LockedTable.commit_of_free hfree
      have htokens : ((s.writeSession p fresh.sessionId
          ⟨fresh.sessionId, user.id, user.tenantId, outletId, none⟩).commit p).tokens =
          s.tokens := LockedTable.commit_of_free hfreeTokens
      have hinserted : PlacedIn sessionPlaces s.userOutlets ((s.writeSession p fresh.sessionId
          ⟨fresh.sessionId, user.id, user.tenantId, outletId, none⟩).commit p).sessions
          (Function.update calls p (some (.loginToken user outletId fresh))) :=
        h.sessions.insert hfreeSessions hfree hknown (hoffers hnone havailable)
      generalize (s.writeSession p fresh.sessionId
        ⟨fresh.sessionId, user.id, user.tenantId, outletId, none⟩).commit p = s' at *
      -- apart from the session this is a step that reads
      have hcalmed : Placed { s' with sessions := s.sessions }
          (Function.update calls p (some (.loginToken user outletId fresh))) :=
        h.calm hk rfl hrows hknown (Moved.rest hfreeSessions) (by
          rw [htokens]
          exact Moved.rest hfreeTokens)
      exact ⟨hcalmed.rowKey, hcalmed.rowLock, hcalmed.informed, hrows.symm ▸ hinserted,
        hcalmed.tokens⟩
  | @insertToken user outletId fresh expiresAt hstate hnone havailable =>
      subst hstate
      obtain ⟨hfreeTokens, hfreeSessions⟩ := hchained.free hk rfl
      have hfree := h.free hk rfl
      have hknown : Known s.userOutlets user.id user.tenantId outletId := h.informed p _ hk
      have hrows : ((s.writeToken p fresh.selector
          ⟨fresh.selector, fresh.tokenHash, user.id, user.tenantId, some fresh.sessionId, outletId,
            expiresAt, none, none⟩).commit p).userOutlets =
          s.userOutlets := LockedTable.commit_of_free hfree
      have hsessions : ((s.writeToken p fresh.selector
          ⟨fresh.selector, fresh.tokenHash, user.id, user.tenantId, some fresh.sessionId, outletId,
            expiresAt, none, none⟩).commit p).sessions =
          s.sessions := LockedTable.commit_of_free hfreeSessions
      have hinserted : PlacedIn tokenPlaces s.userOutlets ((s.writeToken p fresh.selector
          ⟨fresh.selector, fresh.tokenHash, user.id, user.tenantId, some fresh.sessionId, outletId,
            expiresAt, none, none⟩).commit p).tokens
          (Function.update calls p (some .done)) :=
        h.tokens.insert hfreeTokens hfree hknown (hoffers hnone havailable)
      generalize (s.writeToken p fresh.selector
        ⟨fresh.selector, fresh.tokenHash, user.id, user.tenantId, some fresh.sessionId, outletId,
          expiresAt, none, none⟩).commit p = s' at *
      have hcalmed : Placed { s' with tokens := s.tokens }
          (Function.update calls p (some .done)) :=
        h.calm hk rfl hrows trivial (by
          rw [hsessions]
          exact Moved.rest hfreeSessions) (Moved.rest hfreeTokens)
      exact ⟨hcalmed.rowKey, hcalmed.rowLock, hcalmed.informed, hcalmed.sessions,
        hrows.symm ▸ hinserted⟩

theorem Pending.stage {V : Type} {P : Places V} {j : Id} {w : Option (Option V)}
    (h : Pending P k j w) (hk : k.setting = true) (hk' : k'.setting = true) : Pending P k' j w := by
  obtain ⟨row, hw, hclear, -⟩ := h
  refine ⟨row, hw, fun _ => hclear hk, fun hcalm => ?_⟩
  rw [hk'] at hcalm
  cases hcalm

theorem Pending.cleared {V : Type} {P : Places V} {j : Id} {row : V} (hk : k.setting = true)
    (hclear : P.outletId row = none) : Pending P k j (some (some row)) := by
  refine ⟨row, rfl, fun _ => hclear, fun hcalm => ?_⟩
  rw [hk] at hcalm
  cases hcalm

/-- `setUserOutlets` moves on and writes nothing. -/
theorem Placed.stage (h : Placed s calls) (hk : calls p = some k) (hset : k.setting = true)
    (hset' : k'.setting = true) (hquiet : k'.carries = false) (hsets : ∀ r, k.sets r → k'.sets r)
    (hsession : ∀ j row id, s.sessionAt j = some row → row.deletedAt = none →
      row.outletId = some id → Drops s.userOutlets p row.userId id → k.reachesSession j = true →
      k'.reachesSession j = true ∨ (s.sessions.cell j).heldBy p)
    (htoken : ∀ j row id, s.tokenAt j = some row → row.revokedAt = none →
      row.outletId = some id → Drops s.userOutlets p row.userId id → k.reachesToken j = true →
      k'.reachesToken j = true ∨ (s.tokens.cell j).heldBy p) :
    Placed s (Function.update calls p (some k')) := by
  refine h.move (fun _ => rfl) ?_ (informed_of_quiet hquiet _) (Moved.same fun j w hlock => ?_)
    (Moved.same fun j w hlock => ?_) ?_ ?_
  · intro i q w hlock
    by_cases hq : q = p
    · subst hq
      obtain ⟨r, row, hr, hwrite⟩ := h.own hk hlock
      exact .inl ⟨rfl, r, row, hsets r hr, hwrite⟩
    · exact .inr ⟨hq, hlock⟩
  · exact (h.sessions.pending hk hlock).stage hset hset'
  · exact (h.tokens.pending hk hlock).stage hset hset'
  · intro j row id hrow hlive hid hdrop
    obtain hreaches | hheld := ((h.sessions.safe j row hrow (decide_eq_true hlive)) id hid).2 p k hk
      hdrop
    · exact hsession j row id hrow hlive hid hdrop hreaches
    · exact .inr hheld
  · intro j row id hrow hopen hid hdrop
    obtain hreaches | hheld := ((h.tokens.safe j row hrow (decide_eq_true hopen)) id hid).2 p k hk
      hdrop
    · exact htoken j row id hrow hopen hid hdrop hreaches
    · exact .inr hheld

/-- Up to its `UPDATE` of the sessions it has every row ahead. -/
theorem Placed.early (h : Placed s calls) (hk : calls p = some k) (hset : k.setting = true)
    (hset' : k'.setting = true) (hquiet : k'.carries = false) (hsets : ∀ r, k.sets r → k'.sets r)
    (hreaches : ∀ j, k'.reachesSession j = true) :
    Placed s (Function.update calls p (some k')) :=
  h.stage hk hset hset' hquiet hsets (fun j _ _ _ _ _ _ _ => .inl (hreaches j))
    fun j _ _ _ _ _ _ _ => .inl (reachesToken_of_session (hreaches j))

/-- `setUserOutlets` writes an assignment. -/
theorem Placed.writeRow (h : Placed s calls) (hk : calls p = some k) {i : Id × Id}
    {row : UserOutlet} (hwrite : RowWrite s.userOutlets k' i (some (some row)))
    (hset : k.setting = true) (hset' : k'.setting = true) (hquiet : k'.carries = false)
    (hsets : ∀ r, k.sets r → k'.sets r) (hreaches : ∀ j, k'.reachesSession j = true) :
    Placed (s.writeUserOutlet p i row) (Function.update calls p (some k')) := by
  refine h.move ?_ ?_ (informed_of_quiet hquiet _) (Moved.same fun j w hlock => ?_)
    (Moved.same fun j w hlock => ?_) (fun j _ _ _ _ _ _ => .inl (hreaches j))
    fun j _ _ _ _ _ _ => .inl (reachesToken_of_session (hreaches j))
  · intro j
    exact LockedTable.set_cell_cases
      (P := fun c => c.committed = (s.userOutlets.cell j).committed)
      (fun hj => by rw [Cell.write_committed, hj]) fun _ => rfl
  · intro j q w hlock
    have hcell : ((s.userOutlets.set i ((s.userOutlets.cell i).write p (some row))).cell j).lock =
        some ⟨q, w⟩ := hlock
    by_cases hj : j = i
    · subst hj
      rw [LockedTable.set_cell_self] at hcell
      cases hcell
      exact .inl ⟨rfl, hwrite⟩
    · rw [LockedTable.set_cell_of_ne hj] at hcell
      by_cases hq : q = p
      · subst hq
        obtain ⟨r, old, hr, hold⟩ := h.own hk hcell
        exact .inl ⟨rfl, r, old, hsets r hr, hold⟩
      · exact .inr ⟨hq, hcell⟩
  · exact (h.sessions.pending hk hlock).stage hset hset'
  · exact (h.tokens.pending hk hlock).stage hset hset'

/-- An assignment as `setUserOutlets` finds it has its key and its tenant. -/
theorem Placed.visible_assignment (h : Placed s calls) (hk : calls p = some k) {r : OutletsRequest}
    (hsets : ∀ r', k.sets r' → r' = r) {i : Id × Id} {found : UserOutlet}
    (hfound : (s.userOutlets.cell i).visible p = some found)
    (htenant : found.tenantId = r.tenantId) :
    (found.userId, found.outletId) = i ∧
      ∀ old, (s.userOutlets.cell i).committed = some old → old.tenantId = r.tenantId := by
  by_cases hheld : (s.userOutlets.cell i).heldBy p
  · obtain ⟨⟨q, w⟩, hlock, rfl⟩ := hheld
    obtain ⟨r', row, hr', rfl, hkey, -, -, hold, -⟩ := h.own hk hlock
    rw [Cell.visible_of_write hlock] at hfound
    cases hfound
    rw [← hsets r' hr']
    exact ⟨hkey, hold⟩
  · rw [Cell.visible_of_not_heldBy hheld] at hfound
    refine ⟨h.rowKey i found hfound, fun old hold => ?_⟩
    rw [hfound] at hold
    cases hold
    exact htenant

/-- What the call has dropped is not among the outlets of its request. -/
theorem Placed.dropped (h : Placed s calls) (hk : calls p = some k) {r : OutletsRequest}
    (hsets : ∀ r', k.sets r' → r' = r) {userId tenantId id : Id}
    (hassigned : Assigned s.userOutlets userId tenantId id)
    (hdrop : Drops s.userOutlets p userId id) :
    userId = r.userId ∧ tenantId = r.tenantId ∧ r.noLongerAssigned (some id) = true := by
  obtain ⟨row, hlock, hdeleted⟩ := hdrop
  obtain ⟨r', row', hr', hw, hkey, huser, -, hold, hnot⟩ := h.own hk hlock
  obtain ⟨assignment, hassignment, htenant, -⟩ := hassigned
  cases hw
  obtain ⟨hrowUser, hrowOutlet⟩ := Prod.mk.inj hkey
  have hr := hsets r' hr'
  subst hr
  refine ⟨hrowUser.symm.trans huser, htenant.symm.trans (hold assignment hassignment), ?_⟩
  rw [OutletsRequest.noLongerAssigned, Option.any_some, Bool.or_eq_true]
  refine .inr (decide_eq_true ?_)
  rw [← hrowOutlet]
  exact hnot hdeleted

/-- A session that names a dropped outlet meets the condition of the `UPDATE`. -/
theorem Placed.clears_session (h : Placed s calls) (hk : calls p = some k) {r : OutletsRequest}
    (hsets : ∀ r', k.sets r' → r' = r) {j : Id} {row : Session} {id : Id}
    (hrow : s.sessionAt j = some row) (hlive : row.deletedAt = none) (hid : row.outletId = some id)
    (hdrop : Drops s.userOutlets p row.userId id) : r.clearsSession row = true := by
  obtain ⟨hassigned, -⟩ := h.sessions.safe j row hrow (decide_eq_true hlive) id hid
  obtain ⟨huser, htenant, hdropped⟩ := h.dropped hk hsets hassigned hdrop
  refine decide_eq_true ⟨htenant, huser, hlive, ?_⟩
  rw [hid]
  exact hdropped

theorem Placed.clears_token (h : Placed s calls) (hk : calls p = some k) {r : OutletsRequest}
    (hsets : ∀ r', k.sets r' → r' = r) {j : Id} {row : RefreshToken} {id : Id}
    (hrow : s.tokenAt j = some row) (hopen : row.revokedAt = none) (hid : row.outletId = some id)
    (hdrop : Drops s.userOutlets p row.userId id) : r.clearsToken row = true := by
  obtain ⟨hassigned, -⟩ := h.tokens.safe j row hrow (decide_eq_true hopen) id hid
  obtain ⟨huser, htenant, hdropped⟩ := h.dropped hk hsets hassigned hdrop
  refine decide_eq_true ⟨htenant, huser, hopen, ?_⟩
  rw [hid]
  exact hdropped

/-- The rows that a statement matches as it starts, and those that the call holds. -/
theorem mem_matching {V : Type} {t : LockedTable Id V} {cond : V → Bool} {j : Id} {row : V}
    (hrow : (t.cell j).committed = some row) (hcond : cond row = true) :
    j ∈ matching t p cond ∨ (t.cell j).heldBy p := by
  by_cases hheld : (t.cell j).heldBy p
  · exact .inr hheld
  · refine .inl (List.mem_filter.mpr ?_)
    have hvisible : (t.cell j).visible p = some row := by
      rw [Cell.visible_of_not_heldBy hheld]
      exact hrow
    refine ⟨LockedTable.mem_keys_of_visible hvisible, ?_⟩
    rw [hvisible]
    exact hcond

/-- A row that the statement leaves out when it comes to it is one that the call holds. -/
theorem heldBy_of_skipped {V : Type} {t : LockedTable Id V} {cond : V → Bool} {j : Id} {row : V}
    (hrow : (t.cell j).committed = some row) (hcond : cond row = true)
    (hskip : ((t.cell j).visible p).filter cond = none) : (t.cell j).heldBy p := by
  by_contra hheld
  rw [Cell.visible_of_not_heldBy hheld, hrow] at hskip
  have hfilter : (some row).filter cond = some row := Option.filter_eq_some_iff.mpr ⟨rfl, hcond⟩
  rw [hfilter] at hskip
  cases hskip

theorem heldBy_writeOwn {V : Type} {t : LockedTable Id V} {i j : Id} {row : Option V}
    (h : (t.cell j).heldBy p ∨ j = i) : ((t.set i ((t.cell i).write p row)).cell j).heldBy p := by
  by_cases hj : j = i
  · subst hj
    rw [LockedTable.set_cell_self]
    exact ⟨_, rfl, rfl⟩
  · rw [LockedTable.set_cell_of_ne hj]
    obtain hheld | heq := h
    · exact hheld
    · exact absurd heq hj

/-- The `UPDATE` of the sessions clears the next of its rows. -/
theorem Placed.clearSession (h : Placed s calls) {r : OutletsRequest} {j : Id} {rest : List Id}
    (hk : calls p = some (.outletsSessionRows r (j :: rest)))
    (havailable : (s.sessions.cell j).available p = true) (row : Session) :
    Placed (s.writeSession p j { row with outletId := none })
      (Function.update calls p (some (.outletsSessionRows r rest))) := by
  refine h.move (fun _ => rfl) ?_ trivial (Moved.write havailable (.cleared rfl rfl) ?_)
    (Moved.same fun i w hlock => (h.tokens.pending hk hlock).stage rfl rfl) ?_
    fun _ _ _ _ _ _ _ => .inl rfl
  · intro i q w hlock
    by_cases hq : q = p
    · subst hq
      exact .inl ⟨rfl, h.own hk hlock⟩
    · exact .inr ⟨hq, hlock⟩
  · exact fun i w hlock => (h.sessions.pending hk hlock).stage rfl rfl
  · intro i session id hsession hlive hid hdrop
    obtain ⟨-, hothers⟩ := h.sessions.safe i session hsession (decide_eq_true hlive) id hid
    obtain hreaches | hheld := hothers p _ hk hdrop
    · obtain heq | hrest := List.mem_cons.mp (of_decide_eq_true hreaches)
      · exact .inr (heldBy_writeOwn (.inr heq))
      · exact .inl (decide_eq_true hrest)
    · exact .inr (heldBy_writeOwn (.inl hheld))

/-- The `UPDATE` of the tokens clears the next of its rows. -/
theorem Placed.clearToken (h : Placed s calls) {r : OutletsRequest} {j : Id} {rest : List Id}
    (hk : calls p = some (.outletsTokenRows r (j :: rest)))
    (havailable : (s.tokens.cell j).available p = true) (row : RefreshToken) :
    Placed (s.writeToken p j { row with outletId := none })
      (Function.update calls p (some (.outletsTokenRows r rest))) := by
  refine h.move (fun _ => rfl) ?_ trivial
    (Moved.same fun i w hlock => (h.sessions.pending hk hlock).stage rfl rfl)
    (Moved.write havailable (.cleared rfl rfl) ?_) ?_ ?_
  · intro i q w hlock
    by_cases hq : q = p
    · subst hq
      exact .inl ⟨rfl, h.own hk hlock⟩
    · exact .inr ⟨hq, hlock⟩
  · exact fun i w hlock => (h.tokens.pending hk hlock).stage rfl rfl
  · intro i session id hsession hlive hid hdrop
    obtain ⟨-, hothers⟩ := h.sessions.safe i session hsession (decide_eq_true hlive) id hid
    obtain hreaches | hheld := hothers p _ hk hdrop
    · cases hreaches
    · exact .inr hheld
  · intro i token id htoken hopen hid hdrop
    obtain ⟨-, hothers⟩ := h.tokens.safe i token htoken (decide_eq_true hopen) id hid
    obtain hreaches | hheld := hothers p _ hk hdrop
    · obtain heq | hrest := List.mem_cons.mp (of_decide_eq_true hreaches)
      · exact .inr (heldBy_writeOwn (.inr heq))
      · exact .inl (decide_eq_true hrest)
    · exact .inr (heldBy_writeOwn (.inl hheld))

variable (verify : VerifySecret) (a : AuthAnswer)

/-- Every step of `setUserOutlets` in its transaction. -/
theorem Placed.setting_next (h : Placed s calls) (hk : calls p = some k)
    (hset : k.setting = true) :
    Placed (k.next verify p a s).2 (Function.update calls p (some (k.next verify p a s).1)) := by
  cases k with
  | outletsDeleteRows r keys =>
      dsimp only [AuthCall.next]
      split
      · exact h.early hk rfl rfl rfl (fun _ hr => hr) fun _ => rfl
      · split
        · exact System.stop_keeps h hk
        · rename_i i rest _
          split
          · exact h.early hk rfl rfl rfl (fun _ hr => hr) fun _ => rfl
          · rename_i found hfilter
            obtain ⟨hfound, hcond⟩ := Option.filter_eq_some_iff.mp hfilter
            obtain ⟨htenant, huser, -, hnot⟩ := of_decide_eq_true hcond
            obtain ⟨hkey, hold⟩ := h.visible_assignment hk (fun _ hr => hr.symm) hfound htenant
            have hwrite : RowWrite s.userOutlets (.outletsDeleteRows r rest) i
                (some (some { found with deletedAt := some a.now })) :=
              ⟨r, _, rfl, rfl, hkey, huser, htenant, hold, fun _ => hnot⟩
            exact h.writeRow hk hwrite rfl rfl rfl (fun _ hr => hr) fun _ => rfl
  | outletsFind r todo =>
      dsimp only [AuthCall.next]
      split
      · exact h.early hk rfl rfl rfl (fun _ hr => hr) fun _ => rfl
      · split
        · exact h.early hk rfl rfl rfl (fun _ hr => hr) fun _ => rfl
        · split
          · exact h.rollback rfl
          · exact h.early hk rfl rfl rfl (fun _ hr => hr) fun _ => rfl
  | outletsRestore r id todo =>
      dsimp only [AuthCall.next]
      split
      · exact System.stop_keeps h hk
      · split
        · exact h.early hk rfl rfl rfl (fun _ hr => hr) fun _ => rfl
        · rename_i found hfilter
          obtain ⟨hfound, hcond⟩ := Option.filter_eq_some_iff.mp hfilter
          have htenant : found.tenantId = r.tenantId := of_decide_eq_true hcond
          obtain ⟨hkey, hold⟩ := h.visible_assignment hk (fun _ hr => hr.symm) hfound htenant
          have hwrite : RowWrite s.userOutlets (.outletsFind r todo) (r.userId, id)
              (some (some { found with deletedAt := none })) :=
            ⟨r, _, rfl, rfl, hkey, (Prod.mk.inj hkey).1, htenant, hold, fun hne => absurd rfl hne⟩
          exact h.writeRow hk hwrite rfl rfl rfl (fun _ hr => hr) fun _ => rfl
  | outletsCreate r id todo =>
      dsimp only [AuthCall.next]
      split
      · exact h.rollback rfl
      · rename_i hnone
        split
        · exact System.stop_keeps h hk
        · have hwrite : RowWrite s.userOutlets (.outletsFind r todo) (r.userId, id)
              (some (some ⟨r.userId, id, r.tenantId, none⟩)) := by
            refine ⟨r, _, rfl, rfl, rfl, rfl, rfl, fun old hold => ?_, fun hne => absurd rfl hne⟩
            rw [hnone] at hold
            cases hold
          exact h.writeRow hk hwrite rfl rfl rfl (fun _ hr => hr) fun _ => rfl
  | outletsSessions r =>
      refine h.stage hk rfl rfl rfl (fun _ hr => hr) ?_ fun _ _ _ _ _ _ _ _ => .inl rfl
      intro j row id hrow hlive hid hdrop _
      have hclears := h.clears_session hk (fun _ hr => hr.symm) hrow hlive hid hdrop
      obtain hmem | hheld := mem_matching hrow hclears
      · exact .inl (decide_eq_true hmem)
      · exact .inr hheld
  | outletsSessionRows r keys =>
      dsimp only [AuthCall.next]
      split
      · refine h.stage hk rfl rfl rfl (fun _ hr => hr) ?_ fun _ _ _ _ _ _ _ _ => .inl rfl
        intro j row id _ _ _ _ hreaches
        have hmem : decide (j ∈ ([] : List Id)) = true := hreaches
        exact absurd (of_decide_eq_true hmem) List.not_mem_nil
      · split
        · exact System.stop_keeps h hk
        · rename_i i rest havailable
          split
          · rename_i hskip
            refine h.stage hk rfl rfl rfl (fun _ hr => hr) ?_ fun _ _ _ _ _ _ _ _ => .inl rfl
            intro j row id hrow hlive hid hdrop hreaches
            obtain rfl | hrest := List.mem_cons.mp (of_decide_eq_true hreaches)
            · exact .inr (heldBy_of_skipped hrow
                (h.clears_session hk (fun _ hr => hr.symm) hrow hlive hid hdrop) hskip)
            · exact .inl (decide_eq_true hrest)
          · exact h.clearSession hk (Bool.of_not_eq_false havailable) _
  | outletsTokens r =>
      refine h.stage hk rfl rfl rfl (fun _ hr => hr)
        (fun _ _ _ _ _ _ _ hreaches => nomatch hreaches)
        ?_
      intro j row id hrow hopen hid hdrop _
      have hclears := h.clears_token hk (fun _ hr => hr.symm) hrow hopen hid hdrop
      obtain hmem | hheld := mem_matching hrow hclears
      · exact .inl (decide_eq_true hmem)
      · exact .inr hheld
  | outletsTokenRows r keys =>
      dsimp only [AuthCall.next]
      split
      · refine h.stage hk rfl rfl rfl (fun _ _ => trivial)
          (fun _ _ _ _ _ _ _ hreaches => nomatch hreaches) ?_
        intro j row id _ _ _ _ hreaches
        have hmem : decide (j ∈ ([] : List Id)) = true := hreaches
        exact absurd (of_decide_eq_true hmem) List.not_mem_nil
      · split
        · exact System.stop_keeps h hk
        · rename_i i rest havailable
          split
          · rename_i hskip
            refine h.stage hk rfl rfl rfl (fun _ hr => hr)
              (fun _ _ _ _ _ _ _ hreaches => nomatch hreaches) ?_
            intro j row id hrow hopen hid hdrop hreaches
            obtain rfl | hrest := List.mem_cons.mp (of_decide_eq_true hreaches)
            · exact .inr (heldBy_of_skipped hrow
                (h.clears_token hk (fun _ hr => hr.symm) hrow hopen hid hdrop) hskip)
            · exact .inl (decide_eq_true hrest)
          · exact h.clearToken hk (Bool.of_not_eq_false havailable) _
  | outletsCommit => exact h.commit hk rfl trivial rfl
  | _ => cases hset

theorem Placed.next (h : Placed s calls) (hchained : Chained s calls) (hk : calls p = some k)
    (hoffers : k.offers s calls p) :
    Placed (k.next verify p a s).2 (Function.update calls p (some (k.next verify p a s).1)) := by
  cases hset : k.setting with
  | false => exact h.effect hchained hk hset hoffers (next_effect verify a s p k)
  | true => exact h.setting_next verify a hk hset

theorem start_quiet (request : AuthRequest) : request.start.carries = false := by
  cases request with
  | login email password fresh => rfl
  | refresh credentials fresh => rfl
  | switchOutlet request fresh => rfl
  | logout token => rfl
  | setStatus request => rfl
  | setUserOutlets tenantId userId outletIds => rfl

theorem Placed.spawn (h : Placed s calls) (hp : calls p = none) (request : AuthRequest) :
    Placed s (Function.update calls p (some request.start)) := by
  have hfree {V : Type} {P : Places V} {t : LockedTable Id V}
    (hplaced : PlacedIn P s.userOutlets t calls)
      (j : Id) : ¬ (t.cell j).heldBy p := by
    rintro ⟨⟨q, w⟩, hlock, rfl⟩
    obtain ⟨call, hcall, -⟩ := hplaced.lock j q w hlock
    rw [hp] at hcall
    cases hcall
  have hnone (i : Id × Id) (w : Option (Option UserOutlet)) :
      (s.userOutlets.cell i).lock ≠ some ⟨p, w⟩ := by
    intro hlock
    obtain ⟨call, hcall, -⟩ := h.rowLock i p w hlock
    rw [hp] at hcall
    cases hcall
  refine h.move (fun _ => rfl) ?_ (informed_of_quiet (start_quiet request) _)
    (Moved.rest (hfree h.sessions)) (Moved.rest (hfree h.tokens)) ?_ ?_
  · intro i q w hlock
    refine .inr ⟨?_, hlock⟩
    rintro rfl
    exact hnone i w hlock
  · rintro j row id - - - ⟨dropped, hlock, -⟩
    exact absurd hlock (hnone _ _)
  · rintro j row id - - - ⟨dropped, hlock, -⟩
    exact absurd hlock (hnone _ _)

theorem opening_placed (tenants : List Tenant) (users : List User) (outlets : List Outlet)
    (userOutlets : List UserOutlet) :
    Placed (opening tenants users outlets userOutlets) fun _ => none where
  rowKey := by
    intro i row hrow
    have hfind : userOutlets.find? (fun row => decide ((row.userId, row.outletId) = i)) =
      some row :=
      hrow
    have hkey := List.find?_some hfind
    exact of_decide_eq_true hkey
  rowLock := fun _ _ _ hlock => nomatch hlock
  informed := fun _ _ hcall => nomatch hcall
  sessions := ⟨(fun _ _ hrow => nomatch hrow), fun _ _ _ hlock => nomatch hlock⟩
  tokens := ⟨(fun _ _ hrow => nomatch hrow), fun _ _ _ hlock => nomatch hlock⟩

/-- A step that places an outlet finds it assigned, and no `setUserOutlets` that has dropped
it is past the row. -/
def PlacesAssigned (w : World AuthStore AuthCall) : AuthEvent → Prop
  | .step p _ => ∀ k, w.at_ p = some k → k.offers w.store w.at_ p
  | _ => True

theorem exec_placed {w : World AuthStore AuthCall} {e : AuthEvent}
    (h : Chained w.store w.at_ ∧ Placed w.store w.at_) (hok : PlacesAssigned w e) :
    Chained ((authCalls verify).exec w e).store ((authCalls verify).exec w e).at_ ∧
      Placed ((authCalls verify).exec w e).store ((authCalls verify).exec w e).at_ := by
  obtain ⟨hchained, hplaced⟩ := h
  obtain ⟨p, r, -, hp, hstore, hat⟩ | ⟨p, c, k, rfl, -, hk, hstore, hat⟩ | ⟨o, -⟩ |
    ⟨p, k, -, hk, hstore, hat⟩ | ⟨hstore, hat⟩ := (authCalls verify).exec_cases w e
  · rw [hstore, hat]
    exact ⟨hchained.spawn hp r, hplaced.spawn hp r⟩
  · rw [hstore, hat]
    exact ⟨hchained.effect hk (next_effect verify c w.store p k),
      hplaced.next verify c hchained hk (hok k hk)⟩
  · cases o
  · rw [hstore, hat]
    exact ⟨hchained.rollback trivial nofun, hplaced.rollback rfl⟩
  · rw [hstore, hat]
    exact ⟨hchained, hplaced⟩

/-- In every run whose steps place assigned outlets, the outlet of a session that is not
deleted, and of a token that is not revoked, is assigned to its user. -/
theorem session_outlet_assigned (tenants : List Tenant) (users : List User) (outlets : List Outlet)
    (userOutlets : List UserOutlet) (es : List AuthEvent)
    (hok : (authCalls verify).Follows PlacesAssigned
      (.idle (opening tenants users outlets userOutlets)) es) :
    let s := ((authCalls verify).run (.idle (opening tenants users outlets userOutlets)) es).store
    (∀ j session id, s.sessionAt j = some session → session.deletedAt = none →
      session.outletId = some id →
      ∃ row, s.rowAt (session.userId, id) = some row ∧ row.deletedAt = none) ∧
    ∀ j token id, s.tokenAt j = some token → token.revokedAt = none → token.outletId = some id →
      ∃ row, s.rowAt (token.userId, id) = some row ∧ row.deletedAt = none := by
  intro s
  obtain ⟨-, hplaced⟩ := (authCalls verify).follows_invariant
    (I := fun w => Chained w.store w.at_ ∧ Placed w.store w.at_)
    (fun w e hw hok => exec_placed verify hw hok) es hok
    ⟨opening_chained tenants users outlets userOutlets,
      opening_placed tenants users outlets userOutlets⟩
  constructor
  · intro j session id hsession hlive hid
    obtain ⟨⟨row, hrow, -, hassigned⟩, -⟩ :=
      hplaced.sessions.safe j session hsession (decide_eq_true hlive) id hid
    exact ⟨row, hrow, hassigned⟩
  · intro j token id htoken hopen hid
    obtain ⟨⟨row, hrow, -, hassigned⟩, -⟩ :=
      hplaced.tokens.safe j token htoken (decide_eq_true hopen) id hid
    exact ⟨row, hrow, hassigned⟩

theorem placesAssigned_of_state {w : World AuthStore AuthCall} (hk : w.at_ p = some k)
    (hoffers : k.offers w.store w.at_ p) : PlacesAssigned w (.step p a) := by
  intro k' hk'
  rw [hk] at hk'
  cases hk'
  exact hoffers

def acceptAny : VerifySecret := fun _ _ => true

def noon : AuthAnswer := ⟨12, true, true, false⟩

/-- One user of a tenant, to whom one outlet is assigned. -/
def oneOutlet : AuthStore :=
  opening [⟨1, true⟩] [⟨1, "a", some "h", 1, true, none⟩] [⟨5, 1, none⟩] [⟨1, 5, 1, none⟩]

def login : List AuthEvent :=
  .spawn 0 (.login "a" "p" ⟨7, 8, "t"⟩) :: List.replicate 6 (.step 0 noon)

/-- Without a `setUserOutlets` nothing drops an assignment. -/
theorem offered_of_unlocked {u : OutletRows} {userId id : Id} {reaches : AuthCall → Bool}
    (row : UserOutlet) (hrow : (u.cell (userId, id)).committed = some row)
    (hlive : row.deletedAt = none) (hlock : (u.cell (userId, id)).lock = none) :
    Offered u calls userId (some id) reaches := by
  rintro _ ⟨⟩
  refine ⟨⟨row, hrow, hlive⟩, fun q call _ hdrop => ?_⟩
  obtain ⟨dropped, hl, -⟩ := hdrop
  rw [hlock] at hl
  cases hl

theorem login_follows : (authCalls acceptAny).Follows PlacesAssigned (.idle oneOutlet) login := by
  refine ⟨trivial, ?_, ?_, ?_, ?_, ?_, ?_, trivial⟩
  · exact placesAssigned_of_state noon (k := .loginFind "a" "p" ⟨7, 8, "t"⟩)
      (by decide +kernel) trivial
  · exact placesAssigned_of_state noon (by decide +kernel)
      (k := .loginTenant ⟨1, "a", some "h", 1, true, none⟩ ⟨7, 8, "t"⟩) trivial
  · exact placesAssigned_of_state noon (by decide +kernel)
      (k := .loginRole ⟨1, "a", some "h", 1, true, none⟩ ⟨7, 8, "t"⟩) trivial
  · exact placesAssigned_of_state noon (by decide +kernel)
      (k := .loginOutlet ⟨1, "a", some "h", 1, true, none⟩ ⟨7, 8, "t"⟩) trivial
  · exact placesAssigned_of_state noon (by decide +kernel)
      (k := .loginSession ⟨1, "a", some "h", 1, true, none⟩ (some 5) ⟨7, 8, "t"⟩)
      fun _ _ => offered_of_unlocked ⟨1, 5, 1, none⟩ (by decide +kernel) rfl
        (by decide +kernel)
  · exact placesAssigned_of_state noon (by decide +kernel)
      (k := .loginToken ⟨1, "a", some "h", 1, true, none⟩ (some 5) ⟨7, 8, "t"⟩)
      fun _ _ => offered_of_unlocked ⟨1, 5, 1, none⟩ (by decide +kernel) rfl
        (by decide +kernel)

/-- The session and the token of the login name the outlet that is assigned. -/
theorem session_outlet_assigned_example :
    (∃ session, ((authCalls acceptAny).run (.idle oneOutlet) login).store.sessionAt 7 =
    some session ∧
      session.deletedAt = none ∧ session.outletId = some 5) ∧
    ∀ j session id,
      ((authCalls acceptAny).run (.idle oneOutlet) login).store.sessionAt j = some session →
      session.deletedAt = none → session.outletId = some id →
      ∃ row, ((authCalls acceptAny).run (.idle oneOutlet) login).store.rowAt (session.userId, id) =
        some row ∧ row.deletedAt = none := by
  refine ⟨⟨⟨7, 1, 1, some 5, none⟩, by decide +kernel, rfl, rfl⟩, ?_⟩
  exact (session_outlet_assigned acceptAny [⟨1, true⟩] [⟨1, "a", some "h", 1, true, none⟩]
    [⟨5, 1, none⟩] [⟨1, 5, 1, none⟩] login login_follows).1

/-- A login has read the assignment; `setUserOutlets` takes it away, finds no session to clear
and commits; the login writes its session and its token. -/
def loginAcrossDrop : List AuthEvent :=
  .spawn 0 (.login "a" "p" ⟨7, 8, "t"⟩) :: List.replicate 4 (.step 0 noon) ++
    .spawn 1 (.setUserOutlets 1 1 []) :: List.replicate 11 (.step 1 noon) ++
    List.replicate 2 (.step 0 noon)

/-- Both calls are done, and the session and the token name the outlet, which is assigned no
more. -/
theorem login_places_dropped_outlet :
    let w := (authCalls acceptAny).run (.idle oneOutlet) loginAcrossDrop
    w.at_ 0 = some .done ∧ w.at_ 1 = some .done ∧
      w.store.sessionAt 7 = some ⟨7, 1, 1, some 5, none⟩ ∧
      (w.store.tokenAt 8).map RefreshToken.outletId = some (some 5) ∧
      (w.store.tokenAt 8).map RefreshToken.revokedAt = some none ∧
      w.store.rowAt (1, 5) = some ⟨1, 5, 1, some 12⟩ := by
  decide +kernel

end Auth
end ERP
