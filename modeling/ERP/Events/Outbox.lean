import ERP.Lib.Rows
import ERP.Lib.Sorting
import ERP.Lib.Tasks

/-!
# The outbox dispatcher

`OutboxDispatcherService.dispatchBatch` step by step.  A run reads the PENDING rows
once, oldest first, and goes through what it has read: it publishes the event of a
row to the handlers and then updates the row.  Runs are started by a timer and by
several processes, so any number of them is under way.
-/

namespace ERP
namespace Events

open Lib

/-- What a JSON column holds. -/
inductive Json where
  | null
  | bool (value : Bool)
  | num (value : Int)
  | str (value : String)
  | arr (values : List Json)
  | obj (fields : List (String × Json))

/-- Parsing of the language: JSON texts, with the message of the error, and dates. -/
structure DispatchRuntime where
  parse : String → Except String Json
  parseDate : String → Option Int

/-- The values of `DOMAIN_EVENTS`. -/
def domainEventNames : List String :=
  ["user.login", "user.logout", "product.created", "product.updated", "product.deleted",
   "order.created", "order.reserved", "order.reservation.expired", "order.payment.success",
   "order.payment.failed", "order.fulfillment.started", "sales-order.completed",
   "sales-order.created", "sales-order.confirmed", "sales-order.paid", "sales-order.cancelled",
   "sales-order.refunded", "sales-order.completed.v2", "purchase-order.created",
   "purchase-order.pending-approval", "purchase-order.approved", "purchase-order.rejected",
   "purchase-order.sent", "purchase-order.partially-received", "purchase-order.received",
   "purchase-order.completed", "purchase-order.cancelled", "stock.adjusted",
   "warehouse-transfer.created", "warehouse-transfer.shipped",
   "warehouse-transfer.partially-received", "warehouse-transfer.received",
   "warehouse-transfer.cancelled", "kitchen.cooking.started", "kitchen.ready", "kitchen.served",
   "kitchen.cancelled", "kitchen.recalled", "feature-flag.created", "feature-flag.enabled",
   "feature-flag.disabled", "feature-flag.updated", "feature-flag.archived",
   "feature-flag.restored", "feature-flag.override.changed", "business.created",
   "business.updated", "business.activated", "business.suspended", "business.archived",
   "business.restored", "business.type.changed", "super-admin.tenant.activated",
   "super-admin.tenant.suspended", "super-admin.tenant.deactivated",
   "super-admin.tenant.restored", "super-admin.plan-change.scheduled",
   "super-admin.subscription.changed", "subscription.created", "subscription.activated",
   "subscription.renewed", "subscription.cancelled", "subscription.expired",
   "subscription.plan.changed", "subscription.plan-change.scheduled", "subscription.suspended",
   "subscription.past-due", "billing.payment.required", "invoice.created", "invoice.paid",
   "invoice.failed", "invoice.cancelled"]

structure DomainEvent where
  type : String
  payload : Json
  occurredAt : Option Int

/-- An object or an array: `typeof value === 'object' && value !== null`. -/
def Json.isRecord : Json → Bool
  | .arr _ => true
  | .obj _ => true
  | _ => false

/-- A property, `none` where it is `undefined`. -/
def Json.field (name : String) : Json → Option Json
  | .obj fields => (fields.find? fun field => field.1 = name).map (·.2)
  | _ => none

def isDomainEventName : Option Json → Option String
  | some (.str name) => if name ∈ domainEventNames then some name else none
  | _ => none

def normalizeDomainEvent (rt : DispatchRuntime) (value : Json) : Except String DomainEvent :=
  match isDomainEventName (value.field "type"), value.field "payload" with
  | some type, some payload =>
      if payload.isRecord then
        match value.field "occurredAt" with
        | none => .ok ⟨type, payload, none⟩
        | some (.str text) =>
            match rt.parseDate text with
            | some occurredAt => .ok ⟨type, payload, some occurredAt⟩
            | none => .error "Invalid domain event occurredAt in outbox"
        | some _ => .error "Invalid domain event occurredAt in outbox"
      else .error "Invalid domain event payload in outbox"
  | _, _ => .error "Invalid domain event payload in outbox"

def getEventTenantId (event : DomainEvent) : Option String :=
  match event.payload.field "tenantId" with
  | some (.str tenantId) => if tenantId = "" then none else some tenantId
  | _ => none

inductive OutboxStatus where
  | pending | processed | failed
  deriving DecidableEq, Repr

structure OutboxRow where
  id : Nat
  tenantId : Option String
  createdAt : Int
  payload : Json
  status : OutboxStatus
  error : Option String

/-- What `dispatchBatch` makes of a row before it publishes anything: the event and
the tenant of its context. -/
def OutboxRow.event (rt : DispatchRuntime) (row : OutboxRow) :
    Except String (DomainEvent × String) := do
  let parsed ← match row.payload with
    | .str text => rt.parse text
    | value => .ok value
  let event ← normalizeDomainEvent rt parsed
  match row.tenantId.orElse fun _ => getEventTenantId event with
  | none => .error "OUTBOX_TENANT_CONTEXT_MISSING"
  | some tenantId =>
      if tenantId = "" then .error "OUTBOX_TENANT_CONTEXT_MISSING" else .ok (event, tenantId)

def OutboxRow.publishable (rt : DispatchRuntime) (row : OutboxRow) : Bool :=
  match row.event rt with
  | .ok _ => true
  | .error _ => false

/-- The handlers of the event of a row were called by a run, and none or one threw. -/
structure Delivery where
  row : Nat
  run : Nat
  succeeded : Bool
  deriving DecidableEq, Repr

structure Outbox where
  rows : Rows OutboxRow OutboxRow.id
  deliveries : List Delivery

namespace Outbox

/-- `findMany({ where: { status: 'PENDING' }, take: limit, orderBy: { createdAt: 'asc' } })`. -/
def pendingBatch (s : Outbox) (limit : Nat) : List OutboxRow :=
  (orderBy OutboxRow.createdAt (s.rows.toList.filter fun row => row.status = .pending)).take limit

/-- `update({ where: { id } })`. -/
def setStatus (s : Outbox) (id : Nat) (status : OutboxStatus) (error : Option String) : Outbox where
  rows := s.rows.updateMany (fun row => row.id = id)
    (fun row => { row with status := status, error := error.orElse fun _ => row.error })
    fun _ => rfl
  deliveries := s.deliveries

def deliver (s : Outbox) (delivery : Delivery) : Outbox :=
  { s with deliveries := s.deliveries ++ [delivery] }

end Outbox

/-- Where a run stands: about to read, about to publish the first of the rows left, or
about to update the row it has just tried to publish. -/
inductive DispatchRun where
  | read (limit : Nat)
  | publish (rows : List OutboxRow)
  | processed (row : OutboxRow) (rows : List OutboxRow)
  | failed (row : OutboxRow) (message : String) (rows : List OutboxRow)

/-- One step.  `thrown` is the message of the handler that throws while the event is
published, if one does. -/
def DispatchRun.next (rt : DispatchRuntime) (p : Nat) (thrown : Option String) (k : DispatchRun)
    (s : Outbox) : DispatchRun × Outbox :=
  match k with
  | .read limit => (.publish (s.pendingBatch limit), s)
  | .publish [] => (.publish [], s)
  | .publish (row :: rows) =>
      match row.event rt with
      | .error message => (.failed row message rows, s)
      | .ok _ =>
          match thrown with
          | none => (.processed row rows, s.deliver ⟨row.id, p, true⟩)
          | some message => (.failed row message rows, s.deliver ⟨row.id, p, false⟩)
  | .processed row rows => (.publish rows, s.setStatus row.id .processed none)
  | .failed row message rows => (.publish rows, s.setStatus row.id .failed (some message))

/-- The rows a run has read and not updated yet. -/
def DispatchRun.unfinished : DispatchRun → List OutboxRow
  | .read _ => []
  | .publish rows => rows
  | .processed row rows => row :: rows
  | .failed row _ rows => row :: rows

/-- Runs of the dispatcher, while other transactions write new rows. -/
def dispatcher (rt : DispatchRuntime) :
    System Outbox Nat DispatchRun (Option String) OutboxRow where
  start := .read
  next := DispatchRun.next rt
  act := fun row s => { s with rows := s.rows.insert { row with status := .pending } }

abbrev DispatchEvent := Event Nat (Option String) OutboxRow

end Events
end ERP
