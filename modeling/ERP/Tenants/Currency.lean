import ERP.Lib.LockedTable
import ERP.Lib.Tasks
import ERP.Lib.Text
import ERP.Schema

/-!
# The base currency of a tenant

`TenantsRepository.update`, `createOrder` and `createPurchaseOrder`, statement by statement.
`update` runs SERIALIZABLE: what it reads is what was committed when its first statement
started, and it fails if the tenant has changed by the time it gets the row.  The other two
run READ COMMITTED and lock the tenant `FOR SHARE`, which neither modifies the row nor keeps
other transactions from sharing it.
-/

namespace ERP
namespace Tenants

open Lib

/-- A code that `UpdateTenantDto` lets through. -/
structure CurrencyCode where
  code : String
  trimmed : trim code = code
  nonempty : code ≠ ""
  deriving DecidableEq

structure Tenant where
  id : Id
  name : String
  businessType : BusinessType
  currencyCode : Option CurrencyCode
  deletedAt : Option Int
  deriving DecidableEq

/-- The columns of a `SalesOrder` or a `PurchaseOrder` that matter here.  The number is unique
in the tenant. -/
structure FinancialRow where
  tenantId : Id
  number : String
  currencyCode : String
  deriving DecidableEq, Repr

def FinancialRow.key (row : FinancialRow) : Id × String := (row.tenantId, row.number)

inductive Kind where
  | salesOrder | purchaseOrder
  deriving DecidableEq, Repr

/-- The tables, the share locks on tenants (who holds one, on which) and the tenant of each
payment. -/
structure TenantStore where
  tenants : LockedTable Id Tenant
  shares : List (Nat × Id)
  salesOrders : LockedTable (Id × String) FinancialRow
  purchaseOrders : LockedTable (Id × String) FinancialRow
  payments : List Id

namespace TenantStore

variable (s : TenantStore) (p : Nat)

def table : Kind → LockedTable (Id × String) FinancialRow
  | .salesOrder => s.salesOrders
  | .purchaseOrder => s.purchaseOrders

def setTable (t : LockedTable (Id × String) FinancialRow) : Kind → TenantStore
  | .salesOrder => { s with salesOrders := t }
  | .purchaseOrder => { s with purchaseOrders := t }

def commit : TenantStore where
  tenants := s.tenants.commit p
  shares := s.shares.filter fun share => share.1 ≠ p
  salesOrders := s.salesOrders.commit p
  purchaseOrders := s.purchaseOrders.commit p
  payments := s.payments

def rollback : TenantStore where
  tenants := s.tenants.rollback p
  shares := s.shares.filter fun share => share.1 ≠ p
  salesOrders := s.salesOrders.rollback p
  purchaseOrders := s.purchaseOrders.rollback p
  payments := s.payments

/-- Nobody else holds the tenant, shared or not. -/
def exclusive (tenantId : Id) : Bool :=
  (s.tenants.cell tenantId).available p &&
    s.shares.all fun share => share.2 ≠ tenantId || share.1 = p

def share (tenantId : Id) : TenantStore := { s with shares := (p, tenantId) :: s.shares }

def holdTenant (tenantId : Id) : TenantStore :=
  { s with tenants := s.tenants.set tenantId ((s.tenants.cell tenantId).hold p) }

def writeTenant (tenantId : Id) (tenant : Tenant) : TenantStore :=
  { s with tenants := s.tenants.set tenantId ((s.tenants.cell tenantId).write p (some tenant)) }

def writeRow (kind : Kind) (row : FinancialRow) : TenantStore :=
  s.setTable ((s.table kind).set row.key (((s.table kind).cell row.key).write p (some row))) kind

/-- The rows of the tenant that are committed. -/
def count (kind : Kind) (tenantId : Id) : Nat :=
  ((s.table kind).read p).countP fun row => row.tenantId = tenantId

end TenantStore

structure UpdateTenant where
  name : Option String
  businessType : Option BusinessType
  currencyCode : Option CurrencyCode
  deriving DecidableEq

/-- The `data` of `tx.tenant.update`. -/
def UpdateTenant.apply (data : UpdateTenant) (tenant : Tenant) : Tenant where
  id := tenant.id
  name := (data.name.filter (· ≠ "")).getD tenant.name
  businessType := data.businessType.getD tenant.businessType
  currencyCode := data.currencyCode <|> tenant.currencyCode
  deletedAt := tenant.deletedAt

/-- The change that is refused once there is a financial transaction. -/
def UpdateTenant.replacesCurrency (data : UpdateTenant) (tenant : Tenant) : Bool :=
  match data.currencyCode, tenant.currencyCode with
  | some new, some old => new ≠ old
  | _, _ => false

/-- What `update` reads, as its first statement finds it. -/
structure Snapshot where
  tenant : Option Tenant
  version : Nat
  orders : Nat
  purchaseOrders : Nat
  payments : Nat
  deriving DecidableEq

def Snapshot.transactions (snap : Snapshot) : Nat :=
  snap.orders + snap.purchaseOrders + snap.payments

inductive TenantRequest where
  | update (id : Id) (data : UpdateTenant)
  | create (kind : Kind) (tenantId : Id) (number : String)
  deriving DecidableEq

/-- `createOrder` and `createPurchaseOrder`, as far as the currency is concerned. -/
def createOrder (tenantId : Id) (orderNumber : String) : TenantRequest :=
  .create .salesOrder tenantId orderNumber

def createPurchaseOrder (tenantId : Id) (poNumber : String) : TenantRequest :=
  .create .purchaseOrder tenantId poNumber

/-- The statement a call is about to send, or to finish once it has the row. -/
inductive TenantCall where
  | updateBegin (id : Id) (data : UpdateTenant)
  | updateLock (id : Id) (data : UpdateTenant) (snap : Snapshot)
  | updateCount (id : Id) (data : UpdateTenant) (tenant : Tenant) (snap : Snapshot)
  | updateWrite (id : Id) (data : UpdateTenant) (tenant : Tenant)
  | updateCommit (id : Id) (data : UpdateTenant) (tenant : Tenant)
  | createShare (kind : Kind) (tenantId : Id) (number : String)
  | createRow (kind : Kind) (row : FinancialRow)
  | createItems (kind : Kind) (row : FinancialRow)
  | createCommit (kind : Kind) (row : FinancialRow)
  | done
  | rejected
  | stopped
  deriving DecidableEq

/-- One step. -/
def TenantCall.next (p : Nat) (k : TenantCall) (s : TenantStore) : TenantCall × TenantStore :=
  match k with
  | .updateBegin id data =>
      (.updateLock id data ⟨(s.tenants.cell id).visible p, (s.tenants.cell id).version,
        s.count p .salesOrder id, s.count p .purchaseOrder id, s.payments.count id⟩, s)
  | .updateLock id data snap =>
      match snap.tenant.filter fun tenant => tenant.deletedAt = none with
      | none => (.rejected, s)
      | some tenant =>
          if s.exclusive p id = false then (.updateLock id data snap, s)
          else if (s.tenants.cell id).version ≠ snap.version then (.rejected, s)
          else
            (if data.replacesCurrency tenant then .updateCount id data tenant snap
              else .updateWrite id data tenant, s.holdTenant p id)
  | .updateCount id data tenant snap =>
      if 0 < snap.transactions then (.rejected, s.rollback p) else (.updateWrite id data tenant, s)
  | .updateWrite id data tenant =>
      (.updateCommit id data tenant, s.writeTenant p id (data.apply tenant))
  | .updateCommit _ _ _ => (.done, s.commit p)
  | .createShare kind tenantId number =>
      if (s.tenants.cell tenantId).available p = false then (.createShare kind tenantId number, s)
      else
        match ((s.tenants.cell tenantId).visible p).filter fun tenant =>
          tenant.deletedAt = none with
        | none => (.rejected, s)
        | some tenant =>
            match (tenant.currencyCode.map fun code => trim code.code).filter (· ≠ "") with
            | none => (.rejected, s)
            | some currencyCode =>
                (.createRow kind ⟨tenantId, number, currencyCode⟩, s.share p tenantId)
  | .createRow kind row =>
      match ((s.table kind).cell row.key).committed with
      | some _ => (.rejected, s.rollback p)
      | none =>
          if ((s.table kind).cell row.key).available p = false then (.createRow kind row, s)
          else
            (match kind with
              | .salesOrder => .createItems kind row
              | .purchaseOrder => .createCommit kind row, s.writeRow p kind row)
  | .createItems kind row => (.createCommit kind row, s)
  | .createCommit _ _ => (.done, s.commit p)
  | .done => (.done, s)
  | .rejected => (.rejected, s)
  | .stopped => (.stopped, s)

def TenantRequest.start : TenantRequest → TenantCall
  | .update id data => .updateBegin id data
  | .create kind tenantId number => .createShare kind tenantId number

/-- A crash, a statement that fails or a serialization failure rolls the transaction back. -/
def tenantCalls : System TenantStore TenantRequest TenantCall Unit Empty where
  start := TenantRequest.start
  next := fun p _ => TenantCall.next p
  act := fun o => nomatch o
  stop := fun p _ s => (.stopped, s.rollback p)

abbrev TenantEvent := Event TenantRequest Unit Empty

end Tenants
end ERP
