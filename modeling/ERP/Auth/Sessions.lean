import ERP.Lib.LockedTable
import ERP.Lib.Tasks
import ERP.Schema

/-!
# Sessions and refresh tokens

`login`, `refresh`, `switchOutlet` and `logout` of `AuthService`, the rotation of
`RefreshRotationService`, `setUserOutlets` and `UsersService.setStatus`, statement by
statement.  Transactions run READ COMMITTED, but `setStatus` runs SERIALIZABLE: it writes
the rows it saw when its first statement started, and fails if one has changed since.  An
`UPDATE` waits for a row that another transaction holds and looks at its condition again.

A row of a token is named by its selector, which is unique as its id is.
-/

namespace ERP
namespace Auth

open Lib

structure Tenant where
  id : Id
  active : Bool
  deriving DecidableEq, Repr

structure User where
  id : Id
  email : String
  password : Option String
  tenantId : Id
  isActive : Bool
  deletedAt : Option Int
  deriving DecidableEq, Repr

structure Outlet where
  id : Id
  tenantId : Id
  deletedAt : Option Int
  deriving DecidableEq, Repr

structure UserOutlet where
  userId : Id
  outletId : Id
  tenantId : Id
  deletedAt : Option Int
  deriving DecidableEq, Repr

structure Session where
  sessionId : Id
  userId : Id
  tenantId : Id
  outletId : Option Id
  deletedAt : Option Int
  deriving DecidableEq, Repr

structure RefreshToken where
  tokenSelector : Id
  tokenHash : String
  userId : Id
  tenantId : Id
  sessionId : Option Id
  outletId : Option Id
  expiresAt : Int
  revokedAt : Option Int
  rotatedFromId : Option Id
  deriving DecidableEq, Repr

/-- The tables; the rows of `UserOutlet` stand in the order they were created in. -/
structure AuthStore where
  tenants : LockedTable Id Tenant
  users : LockedTable Id User
  outlets : List Outlet
  userOutlets : LockedTable (Id × Id) UserOutlet
  sessions : LockedTable Id Session
  tokens : LockedTable Id RefreshToken

namespace AuthStore

variable (s : AuthStore) (p : Nat)

def commit : AuthStore where
  tenants := s.tenants.commit p
  users := s.users.commit p
  outlets := s.outlets
  userOutlets := s.userOutlets.commit p
  sessions := s.sessions.commit p
  tokens := s.tokens.commit p

def rollback : AuthStore where
  tenants := s.tenants.rollback p
  users := s.users.rollback p
  outlets := s.outlets
  userOutlets := s.userOutlets.rollback p
  sessions := s.sessions.rollback p
  tokens := s.tokens.rollback p

def writeToken (k : Id) (row : RefreshToken) : AuthStore :=
  { s with tokens := s.tokens.set k ((s.tokens.cell k).write p (some row)) }

def writeSession (k : Id) (row : Session) : AuthStore :=
  { s with sessions := s.sessions.set k ((s.sessions.cell k).write p (some row)) }

def writeUserOutlet (k : Id × Id) (row : UserOutlet) : AuthStore :=
  { s with userOutlets := s.userOutlets.set k ((s.userOutlets.cell k).write p (some row)) }

def writeUser (k : Id) (row : User) : AuthStore :=
  { s with users := s.users.set k ((s.users.cell k).write p (some row)) }

def lockTenant (k : Id) : AuthStore :=
  { s with tenants := s.tenants.set k ((s.tenants.cell k).hold p) }

/-- The outlet is assigned to the user, as `p` sees it, and is not deleted. -/
def assigned (userId tenantId : Id) (row : UserOutlet) : Bool :=
  row.userId = userId ∧ row.tenantId = tenantId ∧ row.deletedAt = none ∧
    s.outlets.any fun outlet =>
      outlet.id = row.outletId ∧ outlet.tenantId = tenantId ∧ outlet.deletedAt = none

end AuthStore

/-- The keys of the rows that satisfy the condition of a statement as `p` starts it. -/
def matching {K V : Type} (t : LockedTable K V) (p : Nat) (cond : V → Bool) : List K :=
  t.keys.filter fun k => ((t.cell k).visible p).any cond

/-- The same with the versions the rows have then. -/
def snapshot {K V : Type} (t : LockedTable K V) (p : Nat) (cond : V → Bool) : List (K × Nat) :=
  (matching t p cond).map fun k => (k, (t.cell k).version)

/-- `rotate`'s parameters, with the selector and the hash that are generated. -/
structure Rotation where
  userId : Id
  tenantId : Id
  oldTokenSelector : Id
  oldTokenSecret : String
  newSelector : Id
  newHash : String
  newExpiresAt : Int
  outletId : Option (Option Id)
  deriving DecidableEq, Repr

/-- What a call generates. -/
structure Fresh where
  sessionId : Id
  selector : Id
  tokenHash : String
  deriving DecidableEq, Repr

/-- The refresh token of a request, parsed, and whether a CSRF token came with it. -/
structure Credentials where
  token : Option (Id × String)
  csrfToken : Bool
  deriving DecidableEq, Repr

structure SwitchRequest where
  userId : Id
  tenantId : Id
  sessionId : Id
  outletId : Id
  credentials : Credentials
  deriving DecidableEq, Repr

structure StatusRequest where
  tenantId : Id
  actorUserId : Id
  userId : Id
  isActive : Bool
  deriving DecidableEq, Repr

/-- What `setStatus` sees: the user, and the tokens and sessions to revoke. -/
structure StatusSnapshot where
  user : Option User
  userVersion : Nat
  tokens : List (Id × Nat)
  sessions : List (Id × Nat)
  deriving DecidableEq, Repr

/-- The tenant, the user and the distinct outlet ids of `setUserOutlets`. -/
structure OutletsRequest where
  tenantId : Id
  userId : Id
  outletIds : List Id
  deriving DecidableEq, Repr

/-- `noLongerAssignedFilter`. -/
def OutletsRequest.noLongerAssigned (r : OutletsRequest) (outletId : Option Id) : Bool :=
  r.outletIds = [] || outletId.any fun id => id ∉ r.outletIds

namespace OutletsRequest

variable (r : OutletsRequest)

def dropsAssignment (row : UserOutlet) : Bool :=
  row.tenantId = r.tenantId ∧ row.userId = r.userId ∧ row.deletedAt = none ∧
    row.outletId ∉ r.outletIds

def clearsSession (row : Session) : Bool :=
  row.tenantId = r.tenantId ∧ row.userId = r.userId ∧ row.deletedAt = none ∧
    r.noLongerAssigned row.outletId

def clearsToken (row : RefreshToken) : Bool :=
  row.tenantId = r.tenantId ∧ row.userId = r.userId ∧ row.revokedAt = none ∧
    r.noLongerAssigned row.outletId

end OutletsRequest

inductive AuthRequest where
  | login (email password : String) (fresh : Fresh)
  | refresh (credentials : Credentials) (fresh : Fresh)
  | switchOutlet (request : SwitchRequest) (fresh : Fresh)
  | logout (token : Option (Id × String))
  | setStatus (request : StatusRequest)
  | setUserOutlets (tenantId userId : Id) (outletIds : List Id)
  deriving DecidableEq, Repr

/-- The statement a call is about to send, or to finish once it has the row. -/
inductive AuthCall where
  | loginFind (email password : String) (fresh : Fresh)
  | loginTenant (user : User) (fresh : Fresh)
  | loginRole (user : User) (fresh : Fresh)
  | loginOutlet (user : User) (fresh : Fresh)
  | loginSession (user : User) (outletId : Option Id) (fresh : Fresh)
  | loginToken (user : User) (outletId : Option Id) (fresh : Fresh)
  | refreshFind (credentials : Credentials) (fresh : Fresh)
  | refreshTenant (row : RefreshToken) (secret : String) (fresh : Fresh)
  | refreshReads (row : RefreshToken) (secret : String) (fresh : Fresh) (user : Option Bool)
      (session : Option (Option Session))
  | switchFind (request : SwitchRequest) (fresh : Fresh)
  | switchAssignment (request : SwitchRequest) (selector : Id) (secret : String) (fresh : Fresh)
  | rotateFind (r : Rotation)
  | rotateConsume (r : Rotation) (row : RefreshToken) (sessionId : Id)
  | rotateSession (r : Rotation) (row : RefreshToken) (sessionId : Id)
  | rotateInsert (r : Rotation) (row : RefreshToken) (sessionId : Id)
  | rotateCommit (r : Rotation) (row : RefreshToken) (sessionId : Id)
  | logoutFind (token : Option (Id × String))
  | logoutToken (row : RefreshToken)
  | logoutSession (row : RefreshToken)
  | logoutCommit
  | statusBegin (r : StatusRequest)
  | statusLock (r : StatusRequest) (snap : StatusSnapshot)
  | statusUser (r : StatusRequest) (user : User) (snap : StatusSnapshot)
  | statusTokens (tokens sessions : List (Id × Nat))
  | statusSessions (sessions : List (Id × Nat))
  | statusCommit
  | outletsUser (r : OutletsRequest)
  | outletsCheck (r : OutletsRequest)
  | outletsDelete (r : OutletsRequest)
  | outletsDeleteRows (r : OutletsRequest) (keys : List (Id × Id))
  | outletsFind (r : OutletsRequest) (todo : List Id)
  | outletsRestore (r : OutletsRequest) (id : Id) (todo : List Id)
  | outletsCreate (r : OutletsRequest) (id : Id) (todo : List Id)
  | outletsSessions (r : OutletsRequest)
  | outletsSessionRows (r : OutletsRequest) (keys : List Id)
  | outletsTokens (r : OutletsRequest)
  | outletsTokenRows (r : OutletsRequest) (keys : List Id)
  | outletsCommit
  | rotated
  | done
  | rejected
  | stopped
  deriving DecidableEq, Repr

/-- What a step finds outside these tables: the time, whether the user has a role and the
tenant another administrator, and which of two concurrent reads is answered first. -/
structure AuthAnswer where
  now : Int
  hasRole : Bool
  otherAdmins : Bool
  sessionFirst : Bool
  deriving DecidableEq, Repr

/-- `bcrypt`'s comparison of a secret with a hash. -/
abbrev VerifySecret := String → String → Bool

def REFRESH_LIFETIME_MS : Int := 1000 * 60 * 60 * 24 * 30

/-- The condition of the rotation's `UPDATE` of the token. -/
def Rotation.consumes (r : Rotation) (row found : RefreshToken) (now : Int) : Bool :=
  found.tokenSelector = r.oldTokenSelector ∧ found.tokenHash = row.tokenHash ∧
    found.userId = r.userId ∧ found.tenantId = r.tenantId ∧ found.revokedAt = none ∧
    now < found.expiresAt

/-- A session of the user that is not deleted. -/
def isLive (sessionId userId tenantId : Id) (row : Session) : Bool :=
  row.sessionId = sessionId ∧ row.userId = userId ∧ row.tenantId = tenantId ∧ row.deletedAt = none

/-- `outletId` of the new token and of the session. -/
def Rotation.outlet (r : Rotation) (row : RefreshToken) : Option Id := r.outletId.getD row.outletId

def Rotation.newToken (r : Rotation) (row : RefreshToken) (sessionId : Id) : RefreshToken where
  tokenSelector := r.newSelector
  tokenHash := r.newHash
  userId := row.userId
  tenantId := row.tenantId
  sessionId := some sessionId
  outletId := r.outlet row
  expiresAt := r.newExpiresAt
  revokedAt := none
  rotatedFromId := some row.tokenSelector

/-- After both reads of `refresh`. -/
def AuthCall.afterReads (row : RefreshToken) (secret : String) (fresh : Fresh) (now : Int)
    (user : Option Bool) (session : Option (Option Session)) : AuthCall :=
  match user, session with
  | some user, some session =>
      match user, session with
      | true, some session =>
          .rotateFind ⟨row.userId, row.tenantId, row.tokenSelector, secret, fresh.selector,
            fresh.tokenHash, now + REFRESH_LIFETIME_MS, some session.outletId⟩
      | _, _ => .rejected
  | _, _ => .refreshReads row secret fresh user session

/-- One step. -/
def AuthCall.next (verify : VerifySecret) (p : Nat) (a : AuthAnswer) (k : AuthCall)
    (s : AuthStore) : AuthCall × AuthStore :=
  match k with
  | .loginFind email password fresh =>
      match (s.users.read p).find? fun user => user.email = email.toLower with
      | none => (.rejected, s)
      | some user =>
          match user.isActive, user.password with
          | true, some hash =>
              if verify password hash then (.loginTenant user fresh, s) else (.rejected, s)
          | _, _ => (.rejected, s)
  | .loginTenant user fresh =>
      if ((s.tenants.cell user.tenantId).visible p).any Tenant.active then
        (.loginRole user fresh, s)
      else (.rejected, s)
  | .loginRole user fresh => if a.hasRole then (.loginOutlet user fresh, s) else (.rejected, s)
  | .loginOutlet user fresh =>
      (.loginSession user
        (((s.userOutlets.read p).find? (s.assigned user.id user.tenantId)).map UserOutlet.outletId)
        fresh, s)
  | .loginSession user outletId fresh =>
      match (s.sessions.cell fresh.sessionId).committed with
      | some _ => (.rejected, s)
      | none =>
          if (s.sessions.cell fresh.sessionId).available p = false then
            (.loginSession user outletId fresh, s)
          else
            -- one statement is a transaction of its own
            (.loginToken user outletId fresh, (s.writeSession p fresh.sessionId
              ⟨fresh.sessionId, user.id, user.tenantId, outletId, none⟩).commit p)
  | .loginToken user outletId fresh =>
      match (s.tokens.cell fresh.selector).committed with
      | some _ => (.rejected, s)
      | none =>
          if (s.tokens.cell fresh.selector).available p = false then
            (.loginToken user outletId fresh, s)
          else
            (.done, (s.writeToken p fresh.selector
              ⟨fresh.selector, fresh.tokenHash, user.id, user.tenantId, some fresh.sessionId,
                outletId, a.now + REFRESH_LIFETIME_MS, none, none⟩).commit p)
  | .refreshFind credentials fresh =>
      match credentials.token, credentials.csrfToken with
      | some (selector, secret), true =>
          match (s.tokens.cell selector).visible p with
          | none => (.rejected, s)
          | some row =>
              if row.revokedAt = none ∧ a.now < row.expiresAt ∧ verify secret row.tokenHash ∧
                  row.sessionId ≠ none then
                (.refreshTenant row secret fresh, s)
              else (.rejected, s)
      | _, _ => (.rejected, s)
  | .refreshTenant row secret fresh =>
      if ((s.tenants.cell row.tenantId).visible p).any Tenant.active then
        (.refreshReads row secret fresh none none, s)
      else (.rejected, s)
  | .refreshReads row secret fresh user session =>
      if a.sessionFirst ∧ session = none ∨ user ≠ none then
        (.afterReads row secret fresh a.now user
          (some (row.sessionId.bind fun sessionId =>
            ((s.sessions.cell sessionId).visible p).filter
              (isLive sessionId row.userId row.tenantId))), s)
      else
        (.afterReads row secret fresh a.now
          (some (((s.users.cell row.userId).visible p).any fun user =>
            user.tenantId = row.tenantId ∧ user.deletedAt = none ∧ user.isActive)) session, s)
  | .switchFind request fresh =>
      match request.credentials.token, request.credentials.csrfToken with
      | some (selector, secret), true =>
          match (s.tokens.cell selector).visible p with
          | none => (.rejected, s)
          | some row =>
              if row.revokedAt = none ∧ a.now < row.expiresAt ∧ row.userId = request.userId ∧
                  row.tenantId = request.tenantId ∧ row.sessionId = some request.sessionId ∧
                  verify secret row.tokenHash then
                (.switchAssignment request selector secret fresh, s)
              else (.rejected, s)
      | _, _ => (.rejected, s)
  | .switchAssignment request selector secret fresh =>
      if ((s.userOutlets.cell (request.userId, request.outletId)).visible p).any
          (s.assigned request.userId request.tenantId) then
        (.rotateFind ⟨request.userId, request.tenantId, selector, secret, fresh.selector,
          fresh.tokenHash, a.now + REFRESH_LIFETIME_MS, some (some request.outletId)⟩, s)
      else (.rejected, s)
  | .rotateFind r =>
      match (s.tokens.cell r.oldTokenSelector).visible p with
      | none => (.rejected, s)
      | some row =>
          match row.sessionId with
          | none => (.rejected, s)
          | some sessionId =>
              if row.revokedAt = none ∧ row.userId = r.userId ∧ row.tenantId = r.tenantId ∧
                  verify r.oldTokenSecret row.tokenHash then
                (.rotateConsume r row sessionId, s)
              else (.rejected, s)
  | .rotateConsume r row sessionId =>
      if (s.tokens.cell r.oldTokenSelector).available p = false then
        (.rotateConsume r row sessionId, s)
      else
        match ((s.tokens.cell r.oldTokenSelector).visible p).filter
            fun found => r.consumes row found a.now with
        | none => (.rejected, s.rollback p)
        | some found =>
            (.rotateSession r row sessionId,
              s.writeToken p r.oldTokenSelector { found with revokedAt := some a.now })
  | .rotateSession r row sessionId =>
      if (s.sessions.cell sessionId).available p = false then (.rotateSession r row sessionId, s)
      else
        match ((s.sessions.cell sessionId).visible p).filter
            (isLive sessionId r.userId r.tenantId) with
        | none => (.rejected, s.rollback p)
        | some session =>
            (.rotateInsert r row sessionId,
              s.writeSession p sessionId { session with outletId := r.outlet row })
  | .rotateInsert r row sessionId =>
      match (s.tokens.cell r.newSelector).committed with
      | some _ => (.rejected, s.rollback p)
      | none =>
          if (s.tokens.cell r.newSelector).available p = false then
            (.rotateInsert r row sessionId, s)
          else
            (.rotateCommit r row sessionId, s.writeToken p r.newSelector (r.newToken row sessionId))
  | .rotateCommit _ _ _ => (.rotated, s.commit p)
  | .logoutFind token =>
      match token with
      | none => (.done, s)
      | some (selector, secret) =>
          match (s.tokens.cell selector).visible p with
          | none => (.done, s)
          | some row =>
              if row.revokedAt = none ∧ verify secret row.tokenHash then (.logoutToken row, s)
              else (.done, s)
  | .logoutToken row =>
      if (s.tokens.cell row.tokenSelector).available p = false then (.logoutToken row, s)
      else
        match ((s.tokens.cell row.tokenSelector).visible p).filter
            fun found => found.revokedAt = none with
        | none => (.logoutSession row, s)
        | some found =>
            (.logoutSession row,
              s.writeToken p row.tokenSelector { found with revokedAt := some a.now })
  | .logoutSession row =>
      match row.sessionId with
      | none => (.logoutCommit, s)
      | some sessionId =>
          if (s.sessions.cell sessionId).available p = false then (.logoutSession row, s)
          else
            match ((s.sessions.cell sessionId).visible p).filter
                (isLive sessionId row.userId row.tenantId) with
            | none => (.logoutCommit, s)
            | some session =>
                (.logoutCommit, s.writeSession p sessionId { session with deletedAt := some a.now })
  | .logoutCommit => (.done, s.commit p)
  | .statusBegin r =>
      if r.isActive = false ∧ r.actorUserId = r.userId then (.rejected, s)
      else
        (.statusLock r ⟨(s.users.cell r.userId).visible p, (s.users.cell r.userId).version,
          snapshot s.tokens p fun row =>
            row.userId = r.userId ∧ row.tenantId = r.tenantId ∧ row.revokedAt = none,
          snapshot s.sessions p fun row =>
            row.userId = r.userId ∧ row.tenantId = r.tenantId ∧ row.deletedAt = none⟩, s)
  | .statusLock r snap =>
      if (s.tenants.cell r.tenantId).available p = false then (.statusLock r snap, s)
      else
        match snap.user.filter fun user => user.tenantId = r.tenantId ∧ user.deletedAt = none with
        | none => (.rejected, s)
        | some user =>
            if user.isActive = r.isActive then (.done, s)
            else if r.isActive = false ∧ a.otherAdmins = false then (.rejected, s)
            else (.statusUser r user snap, s.lockTenant p r.tenantId)
  | .statusUser r user snap =>
      if (s.users.cell r.userId).available p = false then (.statusUser r user snap, s)
      else if (s.users.cell r.userId).version ≠ snap.userVersion then (.rejected, s.rollback p)
      else
        (if r.isActive then .statusCommit else .statusTokens snap.tokens snap.sessions,
          s.writeUser p r.userId { user with isActive := r.isActive })
  | .statusTokens tokens sessions =>
      match tokens with
      | [] => (.statusSessions sessions, s)
      | (k, version) :: rest =>
          if (s.tokens.cell k).available p = false then (.statusTokens tokens sessions, s)
          else if (s.tokens.cell k).version ≠ version then (.rejected, s.rollback p)
          else
            match ((s.tokens.cell k).visible p).filter fun row => row.revokedAt = none with
            | none => (.statusTokens rest sessions, s)
            | some row =>
                (.statusTokens rest sessions, s.writeToken p k { row with revokedAt := some a.now })
  | .statusSessions sessions =>
      match sessions with
      | [] => (.statusCommit, s)
      | (k, version) :: rest =>
          if (s.sessions.cell k).available p = false then (.statusSessions sessions, s)
          else if (s.sessions.cell k).version ≠ version then (.rejected, s.rollback p)
          else
            match ((s.sessions.cell k).visible p).filter fun row => row.deletedAt = none with
            | none => (.statusSessions rest, s)
            | some row => (.statusSessions rest,
                  s.writeSession p k { row with deletedAt := some a.now })
  | .statusCommit => (.done, s.commit p)
  | .outletsUser r =>
      if ((s.users.cell r.userId).visible p).any fun user =>
          user.tenantId = r.tenantId ∧ user.deletedAt = none then (.outletsCheck r, s)
      else (.rejected, s)
  | .outletsCheck r =>
      if (s.outlets.filter fun outlet => outlet.id ∈ r.outletIds ∧ outlet.tenantId = r.tenantId ∧
          outlet.deletedAt = none).length = r.outletIds.length then (.outletsDelete r, s)
      else (.rejected, s)
  | .outletsDelete r => (.outletsDeleteRows r (matching s.userOutlets p r.dropsAssignment), s)
  | .outletsDeleteRows r keys =>
      match keys with
      | [] => (.outletsFind r r.outletIds, s)
      | k :: rest =>
          if (s.userOutlets.cell k).available p = false then (.outletsDeleteRows r keys, s)
          else
            match ((s.userOutlets.cell k).visible p).filter r.dropsAssignment with
            | none => (.outletsDeleteRows r rest, s)
            | some row =>
                (.outletsDeleteRows r rest,
                  s.writeUserOutlet p k { row with deletedAt := some a.now })
  | .outletsFind r todo =>
      match todo with
      | [] => (.outletsSessions r, s)
      | id :: rest =>
          match (s.userOutlets.cell (r.userId, id)).visible p with
          | none => (.outletsCreate r id rest, s)
          | some existing =>
              if existing.tenantId ≠ r.tenantId then (.rejected, s.rollback p)
              else (.outletsRestore r id rest, s)
  | .outletsRestore r id todo =>
      if (s.userOutlets.cell (r.userId, id)).available p = false then (.outletsRestore r id todo, s)
      else
        match ((s.userOutlets.cell (r.userId, id)).visible p).filter
            fun row => row.tenantId = r.tenantId with
        | none => (.outletsFind r todo, s)
        | some row =>
            (.outletsFind r todo, s.writeUserOutlet p (r.userId, id) { row with deletedAt := none })
  | .outletsCreate r id todo =>
      match (s.userOutlets.cell (r.userId, id)).committed with
      | some _ => (.rejected, s.rollback p)
      | none =>
          if (s.userOutlets.cell (r.userId, id)).available p = false then
            (.outletsCreate r id todo, s)
          else
            (.outletsFind r todo,
              s.writeUserOutlet p (r.userId, id) ⟨r.userId, id, r.tenantId, none⟩)
  | .outletsSessions r => (.outletsSessionRows r (matching s.sessions p r.clearsSession), s)
  | .outletsSessionRows r keys =>
      match keys with
      | [] => (.outletsTokens r, s)
      | k :: rest =>
          if (s.sessions.cell k).available p = false then (.outletsSessionRows r keys, s)
          else
            match ((s.sessions.cell k).visible p).filter r.clearsSession with
            | none => (.outletsSessionRows r rest, s)
            | some row =>
                (.outletsSessionRows r rest, s.writeSession p k { row with outletId := none })
  | .outletsTokens r => (.outletsTokenRows r (matching s.tokens p r.clearsToken), s)
  | .outletsTokenRows r keys =>
      match keys with
      | [] => (.outletsCommit, s)
      | k :: rest =>
          if (s.tokens.cell k).available p = false then (.outletsTokenRows r keys, s)
          else
            match ((s.tokens.cell k).visible p).filter r.clearsToken with
            | none => (.outletsTokenRows r rest, s)
            | some row => (.outletsTokenRows r rest, s.writeToken p k { row with outletId := none })
  | .outletsCommit => (.done, s.commit p)
  | .rotated => (.rotated, s)
  | .done => (.done, s)
  | .rejected => (.rejected, s)
  | .stopped => (.stopped, s)

def AuthRequest.start : AuthRequest → AuthCall
  | .login email password fresh => .loginFind email password fresh
  | .refresh credentials fresh => .refreshFind credentials fresh
  | .switchOutlet request fresh => .switchFind request fresh
  | .logout token => .logoutFind token
  | .setStatus request => .statusBegin request
  | .setUserOutlets tenantId userId outletIds =>
        .outletsUser ⟨tenantId, userId, outletIds.eraseDups⟩

/-- A crash, or a statement that fails, rolls back the transaction that is open. -/
def authCalls (verify : VerifySecret) :
    System AuthStore AuthRequest AuthCall AuthAnswer Empty where
  start := AuthRequest.start
  next := AuthCall.next verify
  act := fun o => nomatch o
  stop := fun p _ s => (.stopped, s.rollback p)

abbrev AuthEvent := Event AuthRequest AuthAnswer Empty

end Auth
end ERP
