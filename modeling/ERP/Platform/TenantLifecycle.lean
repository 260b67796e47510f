import ERP.Platform.Settings
import ERP.Schema

/-!
# The life of a tenant

Two services change the status of a tenant.  `SuperAdminService` updates it in one statement
that is conditional on the status it expects, with an audit entry and an outbox row in the same
transaction.  `BusinessRegistryService` loads the whole row as an aggregate, changes it in
memory and saves all of it, whatever the row has become by then.
-/

namespace ERP
namespace Platform

open Lib

inductive TenantStatus where
  | active | suspended | deactivated
  deriving DecidableEq, Repr

inductive BusinessStatus where
  | active | suspended | archived
  deriving DecidableEq, Repr

/-- The columns of a `Tenant` that the two services read or write. -/
structure TenantRow where
  id : String
  name : String
  businessType : BusinessType
  contactEmail : Option String
  contactPhone : Option String
  address : Option String
  status : TenantStatus
  deletedAt : Option Int
  deriving DecidableEq, Repr

/-- The payloads of the domain events of both services; the tenant is a column of the row. -/
inductive LifecycleEvent where
  | tenantActivated (actionedByPlatformIdentityId : String)
  | tenantSuspended (actionedByPlatformIdentityId : String) (reason : Option String)
  | tenantDeactivated (actionedByPlatformIdentityId : String) (reason : Option String)
  | tenantRestored (actionedByPlatformIdentityId : String)
  | businessCreated (name : String) (businessType : BusinessType)
  | businessActivated
  | businessSuspended (reason : Option String)
  | businessArchived
  | businessRestored
  | businessUpdated (changes : List String)
  | businessTypeChanged (oldBusinessType newBusinessType : BusinessType)
  deriving DecidableEq, Repr

/-- The names in `DOMAIN_EVENTS`. -/
def LifecycleEvent.type : LifecycleEvent → String
  | tenantActivated _ => "super-admin.tenant.activated"
  | tenantSuspended _ _ => "super-admin.tenant.suspended"
  | tenantDeactivated _ _ => "super-admin.tenant.deactivated"
  | tenantRestored _ => "super-admin.tenant.restored"
  | businessCreated _ _ => "business.created"
  | businessActivated => "business.activated"
  | businessSuspended _ => "business.suspended"
  | businessArchived => "business.archived"
  | businessRestored => "business.restored"
  | businessUpdated _ => "business.updated"
  | businessTypeChanged _ _ => "business.type.changed"

inductive LifecycleFailure where
  | notFound (message : String)
  | conflict (message : String)
  | error (message : String)
  deriving DecidableEq, Repr

/-! ## The aggregate of a platform action -/

structure SuperAdminAggregate where
  actionedByPlatformIdentityId : String
  status : TenantStatus
  deletedAt : Option Int
  domainEvents : List LifecycleEvent
  deriving DecidableEq, Repr

namespace SuperAdminAggregate

def forTarget (actor : String) (status : TenantStatus) (deletedAt : Option Int) :
    SuperAdminAggregate :=
  ⟨actor, status, deletedAt, []⟩

variable (a : SuperAdminAggregate)

def isTargetActive : Bool := a.status = .active && a.deletedAt.isNone

def isTargetSuspended : Bool := a.status = .suspended

def isTargetDeactivated : Bool := a.status = .deactivated || a.deletedAt.isSome

def activate : Except LifecycleFailure SuperAdminAggregate :=
  if a.isTargetActive then .error (.error "Target tenant is already active")
  else .ok { a with
    status := .active, deletedAt := none
    domainEvents := a.domainEvents ++ [.tenantActivated a.actionedByPlatformIdentityId] }

def suspend (reason : Option String) : Except LifecycleFailure SuperAdminAggregate :=
  if a.isTargetSuspended then .error (.error "Target tenant is already suspended")
  else .ok { a with
    status := .suspended
    domainEvents := a.domainEvents ++ [.tenantSuspended a.actionedByPlatformIdentityId reason] }

def deactivate (reason : Option String) (now : Int) :
    Except LifecycleFailure SuperAdminAggregate :=
  if a.isTargetDeactivated then .error (.error "Target tenant is already deactivated")
  else .ok { a with
    status := .deactivated, deletedAt := some now
    domainEvents := a.domainEvents ++ [.tenantDeactivated a.actionedByPlatformIdentityId reason] }

def restore : Except LifecycleFailure SuperAdminAggregate :=
  if a.isTargetDeactivated = false then .error (.error "Target tenant is not deactivated")
  else .ok { a with
    status := .active, deletedAt := none
    domainEvents := a.domainEvents ++ [.tenantRestored a.actionedByPlatformIdentityId] }

end SuperAdminAggregate

inductive PlatformAction where
  | activate
  | suspend (reason : Option String)
  | deactivate (reason : Option String)
  | restore
  deriving DecidableEq, Repr

structure TenantMetadata where
  toStatus : String
  reason : Option String
  deriving DecidableEq, Repr

namespace PlatformAction

/-- The state an action asks of the tenant, both before its transaction and in the condition of
its `updateMany`. -/
def requires (action : PlatformAction) (t : TenantRow) : Bool :=
  match action with
  | activate => t.status = .suspended && t.deletedAt.isNone
  | suspend _ => t.status = .active && t.deletedAt.isNone
  | deactivate _ => (t.status = .active || t.status = .suspended) && t.deletedAt.isNone
  | restore => t.status = .deactivated && t.deletedAt.isSome

def refusal : PlatformAction → String
  | activate => "Only suspended tenants can be activated"
  | suspend _ => "Only active tenants can be suspended"
  | deactivate _ => "Only operational tenants can be deactivated"
  | restore => "Only deactivated tenants can be restored"

def decide (action : PlatformAction) (now : Int) (a : SuperAdminAggregate) :
    Except LifecycleFailure SuperAdminAggregate :=
  match action with
  | activate => a.activate
  | suspend reason => a.suspend reason
  | deactivate reason => a.deactivate reason now
  | restore => a.restore

/-- The `data` of its `updateMany`. -/
def data (action : PlatformAction) (now : Int) (t : TenantRow) : TenantRow :=
  match action with
  | activate => { t with status := .active }
  | suspend _ => { t with status := .suspended }
  | deactivate _ => { t with status := .deactivated, deletedAt := some now }
  | restore => { t with status := .active, deletedAt := none }

/-- The action and the metadata of its audit entry; an empty reason is left out. -/
def auditAction : PlatformAction → String
  | activate => "super-admin.tenant.activated"
  | suspend _ => "super-admin.tenant.suspended"
  | deactivate _ => "super-admin.tenant.deactivated"
  | restore => "super-admin.tenant.restored"

def metadata : PlatformAction → TenantMetadata
  | activate => ⟨"ACTIVE", none⟩
  | suspend reason => ⟨"SUSPENDED", reason.filter (· ≠ "")⟩
  | deactivate reason => ⟨"DEACTIVATED", reason.filter (· ≠ "")⟩
  | restore => ⟨"ACTIVE", none⟩

end PlatformAction

/-! ## The aggregate of the business registry -/

/-- The aggregate with the events it has collected.  The tenant of a business is its id. -/
structure Business where
  id : String
  name : String
  businessType : BusinessType
  contactEmail : Option String
  contactPhone : Option String
  address : Option String
  status : BusinessStatus
  deletedAt : Option Int
  domainEvents : List LifecycleEvent
  deriving DecidableEq, Repr

structure CreateBusiness where
  name : String
  businessType : BusinessType
  contactEmail : Option String
  contactPhone : Option String
  address : Option String
  deriving DecidableEq, Repr

/-- An absent field is `none`; a contact may be set to nothing. -/
structure UpdateBusiness where
  name : Option String
  businessType : Option BusinessType
  contactEmail : Option (Option String)
  contactPhone : Option (Option String)
  address : Option (Option String)
  deriving DecidableEq, Repr

namespace Business

def create (id : String) (input : CreateBusiness) : Business :=
  ⟨id, input.name, input.businessType, input.contactEmail, input.contactPhone, input.address,
    .active, none, [.businessCreated input.name input.businessType, .businessActivated]⟩

variable (b : Business)

def addDomainEvent (e : LifecycleEvent) : Business :=
  { b with domainEvents := b.domainEvents ++ [e] }

def isArchived : Bool := b.status = .archived || b.deletedAt.isSome

def updateName (name : Option String) : Except LifecycleFailure (Business × List String) :=
  match name with
  | none => .ok (b, [])
  | some name =>
      if name = b.name then .ok (b, [])
      else if trim name = "" then .error (.error "Business name cannot be empty")
      else .ok ({ b with name := name }, ["name"])

/-- `changeBusinessType` on a business that is not archived. -/
def setBusinessType (businessType : BusinessType) : Business :=
  if businessType = b.businessType then b
  else { b with businessType := businessType }.addDomainEvent
    (.businessTypeChanged b.businessType businessType)

/-- Only fields that are present are set. -/
def setContacts (data : UpdateBusiness) : Business :=
  { b with
    contactEmail := data.contactEmail.getD b.contactEmail
    contactPhone := data.contactPhone.getD b.contactPhone
    address := data.address.getD b.address }

/-- The changes that `update` reports after the name; a contact that is set counts as one. -/
def changes (data : UpdateBusiness) : List String :=
  (if data.businessType.all (· = b.businessType) then [] else ["businessType"]) ++
    data.contactEmail.elim [] (fun _ => ["contactEmail"]) ++
    data.contactPhone.elim [] (fun _ => ["contactPhone"]) ++
    data.address.elim [] fun _ => ["address"]

def update (data : UpdateBusiness) : Except LifecycleFailure Business :=
  if b.isArchived then .error (.error "Cannot update an archived business")
  else
    match b.updateName data.name with
    | .error e => .error e
    | .ok (named, nameChange) =>
        let typed := (data.businessType.map named.setBusinessType).getD named
        let changed := typed.setContacts data
        let changes := nameChange ++ b.changes data
        .ok (if changes = [] then changed else changed.addDomainEvent (.businessUpdated changes))

def activate : Except LifecycleFailure Business :=
  if b.status = .active then .ok b
  else if b.deletedAt.isSome then .error (.error "Cannot activate an archived business")
  else .ok ({ b with status := .active }.addDomainEvent .businessActivated)

def suspend (reason : Option String) : Except LifecycleFailure Business :=
  if b.status = .suspended then .ok b
  else if b.deletedAt.isSome then .error (.error "Cannot suspend an archived business")
  else .ok ({ b with status := .suspended }.addDomainEvent (.businessSuspended reason))

def archive (now : Int) : Business :=
  if b.deletedAt.isSome then b
  else { b with status := .archived, deletedAt := some now }.addDomainEvent .businessArchived

def restore : Business :=
  if b.deletedAt.isNone then b
  else { b with deletedAt := none, status := .active }.addDomainEvent .businessRestored

def changeBusinessType (newBusinessType : BusinessType) : Except LifecycleFailure Business :=
  if b.isArchived then .error (.error "Cannot change business type on an archived business")
  else .ok (b.setBusinessType newBusinessType)

end Business

inductive BusinessOperation where
  | update (data : UpdateBusiness)
  | activate
  | suspend (reason : Option String)
  | archive
  | restore
  | changeBusinessType (newBusinessType : BusinessType)
  deriving DecidableEq, Repr

def BusinessOperation.apply (op : BusinessOperation) (now : Int) (b : Business) :
    Except LifecycleFailure Business :=
  match op with
  | update data => b.update data
  | activate => b.activate
  | suspend reason => b.suspend reason
  | archive => .ok (b.archive now)
  | restore => .ok b.restore
  | changeBusinessType newBusinessType => b.changeBusinessType newBusinessType

namespace BusinessRegistryRepository

def toAggregate (t : TenantRow) : Business where
  id := t.id
  name := t.name
  businessType := t.businessType
  contactEmail := t.contactEmail
  contactPhone := t.contactPhone
  address := t.address
  status :=
    match t.status with
    | .suspended => .suspended
    | .deactivated => .archived
    | .active => .active
  deletedAt := t.deletedAt
  domainEvents := []

/-- The row that `save` writes, new or not. -/
def toRow (b : Business) : TenantRow where
  id := b.id
  name := b.name
  businessType := b.businessType
  contactEmail := b.contactEmail
  contactPhone := b.contactPhone
  address := b.address
  status :=
    match b.status with
    | .suspended => .suspended
    | .archived => .deactivated
    | .active => .active
  deletedAt := b.deletedAt

/-- `findById`: the business of a tenant has its id. -/
def findById (id tenantId : String) (row : Option TenantRow) : Option Business :=
  if id = tenantId then row.map toAggregate else none

end BusinessRegistryRepository

/-! ## The calls -/

inductive LifecycleRequest where
  | platform (actor tenantId : String) (action : PlatformAction)
  | business (tenantId id : String) (op : BusinessOperation)
  | createBusiness (tenantId : String) (input : CreateBusiness)
  deriving DecidableEq, Repr

namespace SuperAdminService

def activateTenant (actor tenantId : String) : LifecycleRequest :=
  .platform actor tenantId .activate

def suspendTenant (actor tenantId : String) (reason : Option String) : LifecycleRequest :=
  .platform actor tenantId (.suspend reason)

def deactivateTenant (actor tenantId : String) (reason : Option String) : LifecycleRequest :=
  .platform actor tenantId (.deactivate reason)

def restoreTenant (actor tenantId : String) : LifecycleRequest :=
  .platform actor tenantId .restore

end SuperAdminService

/-- What a call writes: its columns as of `now`, or a whole aggregate. -/
inductive LifecyclePlan where
  | columns (now : Int) (events : List LifecycleEvent)
  | aggregate (b : Business)
  deriving DecidableEq, Repr

structure LifecycleOutbox where
  tenantId : String
  type : String
  payload : LifecycleEvent
  status : String
  deriving DecidableEq, Repr

inductive LifecycleLog where
  | audit (entry : PlatformAuditLog TenantMetadata)
  | outbox (row : LifecycleOutbox)
  deriving DecidableEq, Repr

/-- `OutboxPublisher.publish`, and the outbox rows of `save`. -/
def publish (tenantId : String) (e : LifecycleEvent) : LifecycleLog :=
  .outbox ⟨tenantId, e.type, e, "PENDING"⟩

namespace LifecycleRequest

def tenantId : LifecycleRequest → String
  | platform _ tenantId _ => tenantId
  | business tenantId _ _ => tenantId
  | createBusiness tenantId _ => tenantId

/-- What a call does up to its write. -/
def prepare (r : LifecycleRequest) (now : Int) (row : Option TenantRow) :
    Except LifecycleFailure LifecyclePlan :=
  match r with
  | platform actor _ action =>
      match row with
      | none => .error (.notFound "Tenant not found")
      | some t =>
          if action.requires t = false then .error (.conflict action.refusal)
          else
            match action.decide now (.forTarget actor t.status t.deletedAt) with
            | .error e => .error e
            | .ok a => .ok (.columns now a.domainEvents)
  | business tenantId id op =>
      match BusinessRegistryRepository.findById id tenantId row with
      | none => .error (.notFound "Business not found")
      | some b =>
          match op.apply now b with
          | .error e => .error e
          | .ok b' => .ok (.aggregate b')
  | createBusiness tenantId input =>
      match BusinessRegistryRepository.findById tenantId tenantId row with
      | some _ => .error (.conflict "Business already exists for this tenant")
      | none => .ok (.aggregate (.create tenantId input))

/-- The `updateMany` of a platform action, or the `upsert` of `save`. -/
def write (r : LifecycleRequest) (c : LifecyclePlan) (row : Option TenantRow) : Option TenantRow :=
  match r, c with
  | platform _ _ action, .columns now _ =>
      (row.filter action.requires).map (action.data now)
  | _, .aggregate b => some (BusinessRegistryRepository.toRow b)
  | _, .columns _ _ => none

def entries (r : LifecycleRequest) (c : LifecyclePlan) : List LifecycleLog :=
  match r, c with
  | platform actor tenantId action, .columns _ events =>
      .audit (.create actor action.auditAction "TENANT" tenantId (some tenantId) action.metadata) ::
        events.map (publish tenantId)
  | r, .aggregate b => b.domainEvents.map (publish r.tenantId)
  | _, .columns _ _ => []

end LifecycleRequest

/-- The two services together. -/
def lifecycle :
    GuardedWrite String TenantRow LifecycleLog LifecycleRequest LifecyclePlan Int where
  key := LifecycleRequest.tenantId
  plan := fun r now row => (r.prepare now row).toOption
  write := LifecycleRequest.write
  entries := LifecycleRequest.entries

end Platform
end ERP
