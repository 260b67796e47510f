import ERP.Auth.Sessions

/-!
# What a step does

The tables of tokens and sessions change in few ways: a row is written under its lock, the
transaction of the call ends, or a login inserts a row.
-/

namespace ERP
namespace Auth

open Lib

namespace AuthStore

def tokenAt (s : AuthStore) (k : Id) : Option RefreshToken := (s.tokens.cell k).committed

def sessionAt (s : AuthStore) (k : Id) : Option Session := (s.sessions.cell k).committed

end AuthStore

/-- A call that may hold rows. -/
def AuthCall.inTransaction : AuthCall → Bool
  | .rotateSession .. | .rotateInsert .. | .rotateCommit .. => true
  | .logoutSession _ | .logoutCommit => true
  | .statusUser .. | .statusTokens .. | .statusSessions _ | .statusCommit => true
  | .outletsDeleteRows .. | .outletsFind .. | .outletsRestore .. | .outletsCreate .. => true
  | .outletsSessions _ | .outletsSessionRows .. | .outletsTokens _ | .outletsTokenRows .. => true
  | .outletsCommit => true
  | _ => false

/-- The columns of a token that no update changes. -/
structure SameToken (row row' : RefreshToken) : Prop where
  selector : row'.tokenSelector = row.tokenSelector
  session : row'.sessionId = row.sessionId
  rotatedFrom : row'.rotatedFromId = row.rotatedFromId

theorem SameToken.refl (row : RefreshToken) : SameToken row row := ⟨rfl, rfl, rfl⟩

theorem SameToken.trans {a b c : RefreshToken} (h : SameToken a b) (h' : SameToken b c) :
    SameToken a c :=
  ⟨h'.selector.trans h.selector, h'.session.trans h.session, h'.rotatedFrom.trans h.rotatedFrom⟩

/-- A state of which nothing is known. -/
def AuthCall.plain : AuthCall → Bool
  | .rotateConsume .. | .rotateSession .. | .rotateInsert .. | .rotateCommit .. => false
  | .loginToken .. => false
  | _ => true

/-- In the transaction of `setUserOutlets`. -/
def AuthCall.setting : AuthCall → Bool
  | .outletsDeleteRows .. | .outletsFind .. | .outletsRestore .. | .outletsCreate .. => true
  | .outletsSessions _ | .outletsSessionRows .. | .outletsTokens _ | .outletsTokenRows .. => true
  | .outletsCommit => true
  | _ => false

/-- About to commit. -/
def AuthCall.commits : AuthCall → Bool
  | .rotateCommit .. | .logoutCommit | .statusCommit | .outletsCommit => true
  | _ => false

/-- The state carries an outlet that was read. -/
def AuthCall.carries : AuthCall → Bool
  | .loginSession .. | .loginToken .. => true
  | .refreshReads _ _ _ _ (some (some _)) => true
  | .rotateFind _ | .rotateConsume .. | .rotateSession .. | .rotateInsert .. => true
  | .rotateCommit .. => true
  | _ => false

/-- Where a call that reads has the outlet from that it carries then. -/
inductive Told (s : AuthStore) (p : Nat) : AuthCall → AuthCall → Prop
  | quiet {k k' : AuthCall} (h : k'.carries = false) : Told s p k k'
  | login {user : User} {fresh : Fresh} :
      Told s p (.loginOutlet user fresh) (.loginSession user
        (((s.userOutlets.read p).find? (s.assigned user.id user.tenantId)).map UserOutlet.outletId)
        fresh)
  | refresh {row : RefreshToken} {secret : String} {fresh : Fresh} {user user' : Option Bool}
      {session session' : Option (Option Session)} {now : Int}
      (h : session' = session ∨ session' = some (row.sessionId.bind fun sessionId =>
        ((s.sessions.cell sessionId).visible p).filter
          (isLive sessionId row.userId row.tenantId))) :
      Told s p (.refreshReads row secret fresh user session)
        (.afterReads row secret fresh now user' session')
  | switch {request : SwitchRequest} {selector : Id} {secret : String} {fresh : Fresh}
      {expiresAt : Int}
      (h : ((s.userOutlets.cell (request.userId, request.outletId)).visible p).any
        (s.assigned request.userId request.tenantId) = true) :
      Told s p (.switchAssignment request selector secret fresh)
        (.rotateFind ⟨request.userId, request.tenantId, selector, secret, fresh.selector,
          fresh.tokenHash, expiresAt, some (some request.outletId)⟩)

/-- A step takes a call from `k` to another state, and the store to another. -/
inductive Effect (s : AuthStore) (p : Nat) (k : AuthCall) : AuthCall → AuthStore → Prop
  | wait : Effect s p k k s
  | read {k' : AuthCall} {s' : AuthStore} (hk : k.inTransaction = false) (hplain : k'.plain = true)
      (htokens : s'.tokens = s.tokens) (hsessions : s'.sessions = s.sessions)
      (hrows : s'.userOutlets = s.userOutlets) (htold : Told s p k k') : Effect s p k k' s'
  | pass {k' : AuthCall} {s' : AuthStore} (hk : k.plain = true) (hin : k'.inTransaction = true)
      (hplain : k'.plain = true) (hsetting : k'.setting = k.setting)
      (htokens : s'.tokens = s.tokens) (hsessions : s'.sessions = s.sessions)
      (hrows : k.setting = false → s'.userOutlets = s.userOutlets) : Effect s p k k' s'
  | find {r : Rotation} {row : RefreshToken} {sessionId : Id} (hk : k = .rotateFind r)
      (hrow : (s.tokens.cell r.oldTokenSelector).visible p = some row)
      (hsession : row.sessionId = some sessionId)
      (howner : row.userId = r.userId ∧ row.tenantId = r.tenantId) :
      Effect s p k (.rotateConsume r row sessionId) s
  | consume {r : Rotation} {row found revoked : RefreshToken} {sessionId : Id}
      (hk : k = .rotateConsume r row sessionId)
      (havailable : (s.tokens.cell r.oldTokenSelector).available p = true)
      (hfound : (s.tokens.cell r.oldTokenSelector).visible p = some found)
      (hopen : found.revokedAt = none) (hsame : SameToken found revoked)
      (hrevoked : revoked.revokedAt ≠ none) :
      Effect s p k (.rotateSession r row sessionId) (s.writeToken p r.oldTokenSelector revoked)
  | touch {r : Rotation} {row : RefreshToken} {session : Session} {sessionId : Id}
      (hk : k = .rotateSession r row sessionId)
      (havailable : (s.sessions.cell sessionId).available p = true)
      (hsession : (s.sessions.cell sessionId).visible p = some session)
      (hlive : isLive sessionId r.userId r.tenantId session = true) :
      Effect s p k (.rotateInsert r row sessionId)
        (s.writeSession p sessionId { session with outletId := r.outlet row })
  | rotate {r : Rotation} {row : RefreshToken} {sessionId : Id}
      (hk : k = .rotateInsert r row sessionId)
      (hnone : s.tokenAt r.newSelector = none)
      (havailable : (s.tokens.cell r.newSelector).available p = true) :
      Effect s p k (.rotateCommit r row sessionId)
        (s.writeToken p r.newSelector (r.newToken row sessionId))
  | writeToken {k' : AuthCall} {j : Id} {found row : RefreshToken} (hk : k.plain = true)
      (hin : k'.inTransaction = true) (hplain : k'.plain = true) (hsetting : k'.setting = k.setting)
      (havailable : (s.tokens.cell j).available p = true)
      (hfound : (s.tokens.cell j).visible p = some found) (hopen : found.revokedAt = none)
      (hsame : SameToken found row) (hrevoked : k.setting = false → row.revokedAt ≠ none) :
      Effect s p k k' (s.writeToken p j row)
  | writeSession {k' : AuthCall} {j : Id} {found row : Session} (hk : k.plain = true)
      (hin : k'.inTransaction = true) (hplain : k'.plain = true) (hsetting : k'.setting = k.setting)
      (havailable : (s.sessions.cell j).available p = true)
      (hfound : (s.sessions.cell j).visible p = some found) (hlive : found.deletedAt = none)
      (hdeleted : k.setting = false → row.deletedAt ≠ none) :
      Effect s p k k' (s.writeSession p j row)
  | commit {k' : AuthCall} (hk : k.commits = true) (hk' : k' = .done ∨ k' = .rotated) :
      Effect s p k k' (s.commit p)
  | rollback : Effect s p k .rejected (s.rollback p)
  | insertSession {user : User} {outletId : Option Id} {fresh : Fresh}
      (hk : k = .loginSession user outletId fresh) (hnone : s.sessionAt fresh.sessionId = none)
      (havailable : (s.sessions.cell fresh.sessionId).available p = true) :
      Effect s p k (.loginToken user outletId fresh)
        ((s.writeSession p fresh.sessionId
          ⟨fresh.sessionId, user.id, user.tenantId, outletId, none⟩).commit p)
  | insertToken {user : User} {outletId : Option Id} {fresh : Fresh} {expiresAt : Int}
      (hk : k = .loginToken user outletId fresh) (hnone : s.tokenAt fresh.selector = none)
      (havailable : (s.tokens.cell fresh.selector).available p = true) :
      Effect s p k .done ((s.writeToken p fresh.selector
        ⟨fresh.selector, fresh.tokenHash, user.id, user.tenantId, some fresh.sessionId, outletId,
          expiresAt, none, none⟩).commit p)

variable {s s' : AuthStore} {p : Nat} {k k' : AuthCall}

theorem afterReads_plain (row : RefreshToken) (secret : String) (fresh : Fresh) (now : Int)
    (user : Option Bool) (session : Option (Option Session)) :
    (AuthCall.afterReads row secret fresh now user session).plain = true := by
  unfold AuthCall.afterReads
  split
  · split
    · rfl
    · rfl
  · rfl

variable (verify : VerifySecret) (a : AuthAnswer)

/-- What one step does. -/
theorem next_effect (s : AuthStore) (p : Nat) (k : AuthCall) :
    Effect s p k (k.next verify p a s).1 (k.next verify p a s).2 := by
  cases k with
  | loginFind email password fresh =>
      dsimp only [AuthCall.next]
      split
      · exact .read rfl rfl rfl rfl rfl (.quiet rfl)
      · split
        · split
          · exact .read rfl rfl rfl rfl rfl (.quiet rfl)
          · exact .read rfl rfl rfl rfl rfl (.quiet rfl)
        · exact .read rfl rfl rfl rfl rfl (.quiet rfl)
  | loginTenant user fresh =>
      dsimp only [AuthCall.next]
      split
      · exact .read rfl rfl rfl rfl rfl (.quiet rfl)
      · exact .read rfl rfl rfl rfl rfl (.quiet rfl)
  | loginRole user fresh =>
      dsimp only [AuthCall.next]
      split
      · exact .read rfl rfl rfl rfl rfl (.quiet rfl)
      · exact .read rfl rfl rfl rfl rfl (.quiet rfl)
  | loginOutlet user fresh => exact .read rfl rfl rfl rfl rfl .login
  | loginSession user outletId fresh =>
      dsimp only [AuthCall.next]
      split
      · exact .read rfl rfl rfl rfl rfl (.quiet rfl)
      · rename_i hnone
        split
        · exact .wait
        · rename_i havailable
          exact .insertSession rfl hnone (Bool.of_not_eq_false havailable)
  | loginToken user outletId fresh =>
      dsimp only [AuthCall.next]
      split
      · exact .read rfl rfl rfl rfl rfl (.quiet rfl)
      · rename_i hnone
        split
        · exact .wait
        · rename_i havailable
          exact .insertToken rfl hnone (Bool.of_not_eq_false havailable)
  | refreshFind credentials fresh =>
      dsimp only [AuthCall.next]
      split
      · split
        · exact .read rfl rfl rfl rfl rfl (.quiet rfl)
        · split
          · exact .read rfl rfl rfl rfl rfl (.quiet rfl)
          · exact .read rfl rfl rfl rfl rfl (.quiet rfl)
      · exact .read rfl rfl rfl rfl rfl (.quiet rfl)
  | refreshTenant row secret fresh =>
      dsimp only [AuthCall.next]
      split
      · exact .read rfl rfl rfl rfl rfl (.quiet rfl)
      · exact .read rfl rfl rfl rfl rfl (.quiet rfl)
  | refreshReads row secret fresh user session =>
      dsimp only [AuthCall.next]
      split
      · exact .read rfl (afterReads_plain ..) rfl rfl rfl (.refresh (.inr rfl))
      · exact .read rfl (afterReads_plain ..) rfl rfl rfl (.refresh (.inl rfl))
  | switchFind request fresh =>
      dsimp only [AuthCall.next]
      split
      · split
        · exact .read rfl rfl rfl rfl rfl (.quiet rfl)
        · split
          · exact .read rfl rfl rfl rfl rfl (.quiet rfl)
          · exact .read rfl rfl rfl rfl rfl (.quiet rfl)
      · exact .read rfl rfl rfl rfl rfl (.quiet rfl)
  | switchAssignment request selector secret fresh =>
      dsimp only [AuthCall.next]
      split
      · rename_i hassigned
        exact .read rfl rfl rfl rfl rfl (.switch hassigned)
      · exact .read rfl rfl rfl rfl rfl (.quiet rfl)
  | rotateFind r =>
      dsimp only [AuthCall.next]
      split
      · exact .read rfl rfl rfl rfl rfl (.quiet rfl)
      · rename_i row hrow
        split
        · exact .read rfl rfl rfl rfl rfl (.quiet rfl)
        · rename_i sessionId hsession
          split
          · rename_i hcond
            exact .find rfl hrow hsession ⟨hcond.2.1, hcond.2.2.1⟩
          · exact .read rfl rfl rfl rfl rfl (.quiet rfl)
  | rotateConsume r row sessionId =>
      dsimp only [AuthCall.next]
      split
      · exact .wait
      · rename_i havailable
        split
        · exact .rollback
        · rename_i found hfilter
          obtain ⟨hfound, hcond⟩ := Option.filter_eq_some_iff.mp hfilter
          have hopen := (of_decide_eq_true hcond).2.2.2.2.1
          exact .consume rfl (Bool.of_not_eq_false havailable) hfound hopen ⟨rfl, rfl, rfl⟩
            (Option.some_ne_none a.now)
  | rotateSession r row sessionId =>
      dsimp only [AuthCall.next]
      split
      · exact .wait
      · rename_i havailable
        split
        · exact .rollback
        · rename_i session hfilter
          obtain ⟨hfound, hcond⟩ := Option.filter_eq_some_iff.mp hfilter
          exact .touch rfl (Bool.of_not_eq_false havailable) hfound hcond
  | rotateInsert r row sessionId =>
      dsimp only [AuthCall.next]
      split
      · exact .rollback
      · rename_i hnone
        split
        · exact .wait
        · rename_i havailable
          exact .rotate rfl hnone (Bool.of_not_eq_false havailable)
  | rotateCommit r row sessionId => exact .commit rfl (.inr rfl)
  | logoutFind token =>
      dsimp only [AuthCall.next]
      split
      · exact .read rfl rfl rfl rfl rfl (.quiet rfl)
      · split
        · exact .read rfl rfl rfl rfl rfl (.quiet rfl)
        · split
          · exact .read rfl rfl rfl rfl rfl (.quiet rfl)
          · exact .read rfl rfl rfl rfl rfl (.quiet rfl)
  | logoutToken row =>
      dsimp only [AuthCall.next]
      split
      · exact .wait
      · rename_i havailable
        split
        · exact .read rfl rfl rfl rfl rfl (.quiet rfl)
        · rename_i found hfilter
          obtain ⟨hfound, hopen⟩ := Option.filter_eq_some_iff.mp hfilter
          exact .writeToken rfl rfl rfl rfl (Bool.of_not_eq_false havailable) hfound
            (of_decide_eq_true hopen) ⟨rfl, rfl, rfl⟩ fun _ => Option.some_ne_none a.now
  | logoutSession row =>
      dsimp only [AuthCall.next]
      split
      · exact .pass rfl rfl rfl rfl rfl rfl fun _ => rfl
      · split
        · exact .wait
        · rename_i havailable
          split
          · exact .pass rfl rfl rfl rfl rfl rfl fun _ => rfl
          · rename_i session hfilter
            obtain ⟨hfound, hcond⟩ := Option.filter_eq_some_iff.mp hfilter
            have hlive := (of_decide_eq_true hcond).2.2.2
            exact .writeSession rfl rfl rfl rfl (Bool.of_not_eq_false havailable) hfound hlive
              fun _ => Option.some_ne_none a.now
  | logoutCommit => exact .commit rfl (.inl rfl)
  | statusBegin r =>
      dsimp only [AuthCall.next]
      split
      · exact .read rfl rfl rfl rfl rfl (.quiet rfl)
      · exact .read rfl rfl rfl rfl rfl (.quiet rfl)
  | statusLock r snap =>
      dsimp only [AuthCall.next]
      split
      · exact .wait
      · split
        · exact .read rfl rfl rfl rfl rfl (.quiet rfl)
        · split
          · exact .read rfl rfl rfl rfl rfl (.quiet rfl)
          · split
            · exact .read rfl rfl rfl rfl rfl (.quiet rfl)
            · exact .pass rfl rfl rfl rfl rfl rfl fun _ => rfl
  | statusUser r user snap =>
      dsimp only [AuthCall.next]
      split
      · exact .wait
      · split
        · exact .rollback
        · split
          · exact .pass rfl rfl rfl rfl rfl rfl fun _ => rfl
          · exact .pass rfl rfl rfl rfl rfl rfl fun _ => rfl
  | statusTokens tokens sessions =>
      dsimp only [AuthCall.next]
      split
      · exact .pass rfl rfl rfl rfl rfl rfl fun _ => rfl
      · split
        · exact .wait
        · rename_i havailable
          split
          · exact .rollback
          · split
            · exact .pass rfl rfl rfl rfl rfl rfl fun _ => rfl
            · rename_i row hfilter
              obtain ⟨hfound, hopen⟩ := Option.filter_eq_some_iff.mp hfilter
              exact .writeToken rfl rfl rfl rfl (Bool.of_not_eq_false havailable) hfound
                (of_decide_eq_true hopen) ⟨rfl, rfl, rfl⟩ fun _ => Option.some_ne_none a.now
  | statusSessions sessions =>
      dsimp only [AuthCall.next]
      split
      · exact .pass rfl rfl rfl rfl rfl rfl fun _ => rfl
      · split
        · exact .wait
        · rename_i havailable
          split
          · exact .rollback
          · split
            · exact .pass rfl rfl rfl rfl rfl rfl fun _ => rfl
            · rename_i row hfilter
              obtain ⟨hfound, hlive⟩ := Option.filter_eq_some_iff.mp hfilter
              exact .writeSession rfl rfl rfl rfl (Bool.of_not_eq_false havailable) hfound
                (of_decide_eq_true hlive) fun _ => Option.some_ne_none a.now
  | statusCommit => exact .commit rfl (.inl rfl)
  | outletsUser r =>
      dsimp only [AuthCall.next]
      split
      · exact .read rfl rfl rfl rfl rfl (.quiet rfl)
      · exact .read rfl rfl rfl rfl rfl (.quiet rfl)
  | outletsCheck r =>
      dsimp only [AuthCall.next]
      split
      · exact .read rfl rfl rfl rfl rfl (.quiet rfl)
      · exact .read rfl rfl rfl rfl rfl (.quiet rfl)
  | outletsDelete r => exact .read rfl rfl rfl rfl rfl (.quiet rfl)
  | outletsDeleteRows r keys =>
      dsimp only [AuthCall.next]
      split
      · exact .pass rfl rfl rfl rfl rfl rfl fun _ => rfl
      · split
        · exact .wait
        · split
          · exact .pass rfl rfl rfl rfl rfl rfl fun _ => rfl
          · exact .pass rfl rfl rfl rfl rfl rfl nofun
  | outletsFind r todo =>
      dsimp only [AuthCall.next]
      split
      · exact .pass rfl rfl rfl rfl rfl rfl fun _ => rfl
      · split
        · exact .pass rfl rfl rfl rfl rfl rfl fun _ => rfl
        · split
          · exact .rollback
          · exact .pass rfl rfl rfl rfl rfl rfl fun _ => rfl
  | outletsRestore r id todo =>
      dsimp only [AuthCall.next]
      split
      · exact .wait
      · split
        · exact .pass rfl rfl rfl rfl rfl rfl fun _ => rfl
        · exact .pass rfl rfl rfl rfl rfl rfl nofun
  | outletsCreate r id todo =>
      dsimp only [AuthCall.next]
      split
      · exact .rollback
      · split
        · exact .wait
        · exact .pass rfl rfl rfl rfl rfl rfl nofun
  | outletsSessions r => exact .pass rfl rfl rfl rfl rfl rfl fun _ => rfl
  | outletsSessionRows r keys =>
      dsimp only [AuthCall.next]
      split
      · exact .pass rfl rfl rfl rfl rfl rfl fun _ => rfl
      · split
        · exact .wait
        · rename_i havailable
          split
          · exact .pass rfl rfl rfl rfl rfl rfl fun _ => rfl
          · rename_i row hfilter
            obtain ⟨hfound, hcond⟩ := Option.filter_eq_some_iff.mp hfilter
            have hlive := (of_decide_eq_true hcond).2.2.1
            exact .writeSession rfl rfl rfl rfl (Bool.of_not_eq_false havailable) hfound hlive nofun
  | outletsTokens r => exact .pass rfl rfl rfl rfl rfl rfl fun _ => rfl
  | outletsTokenRows r keys =>
      dsimp only [AuthCall.next]
      split
      · exact .pass rfl rfl rfl rfl rfl rfl fun _ => rfl
      · split
        · exact .wait
        · rename_i havailable
          split
          · exact .pass rfl rfl rfl rfl rfl rfl fun _ => rfl
          · rename_i row hfilter
            obtain ⟨hfound, hcond⟩ := Option.filter_eq_some_iff.mp hfilter
            have hopen := (of_decide_eq_true hcond).2.2.1
            exact .writeToken rfl rfl rfl rfl (Bool.of_not_eq_false havailable) hfound hopen
              ⟨rfl, rfl, rfl⟩ nofun
  | outletsCommit => exact .commit rfl (.inl rfl)
  | rotated => exact .wait
  | done => exact .wait
  | rejected => exact .wait
  | stopped => exact .wait

end Auth
end ERP
