import ERP.Lib.GuardedWrites
import ERP.Lib.Text

/-!
# Platform settings

`PlatformSettingsService`: five settings with a default each, kept in rows that have a version.
An update names the version it has seen, is refused when the setting has another one, and
writes with the version as a condition.  `new URL` and the time zones of `Intl` are parameters.
-/

namespace ERP
namespace Platform

open Lib

/-- The keys of `PLATFORM_SETTINGS`. -/
inductive PlatformSettingKey where
  | platformName | supportEmail | supportUrl | defaultTimezone | defaultCurrency
  deriving DecidableEq, Repr

namespace PlatformSettingKey

def name : PlatformSettingKey → String
  | platformName => "platformName"
  | supportEmail => "supportEmail"
  | supportUrl => "supportUrl"
  | defaultTimezone => "defaultTimezone"
  | defaultCurrency => "defaultCurrency"

def label : PlatformSettingKey → String
  | platformName => "Platform name"
  | supportEmail => "Support email"
  | supportUrl => "Support URL"
  | defaultTimezone => "Default timezone"
  | defaultCurrency => "Default display currency"

def defaultValue : PlatformSettingKey → String
  | platformName => "ERP Multi Business"
  | supportEmail => ""
  | supportUrl => ""
  | defaultTimezone => "Asia/Jakarta"
  | defaultCurrency => "IDR"

def all : List PlatformSettingKey :=
  [platformName, supportEmail, supportUrl, defaultTimezone, defaultCurrency]

theorem mem_all (key : PlatformSettingKey) : key ∈ all := by
  cases key <;> decide

theorem name_injective : Function.Injective name := by
  intro a b h
  cases a <;> cases b <;> first | rfl | exact absurd h (by decide)

end PlatformSettingKey

/-- `isSettingKey`. -/
def isSettingKey (key : String) : Option PlatformSettingKey :=
  PlatformSettingKey.all.find? fun setting => setting.name = key

theorem isSettingKey_name (key : PlatformSettingKey) : isSettingKey key.name = some key := by
  cases key <;> decide

theorem name_of_isSettingKey {key : String} {setting : PlatformSettingKey}
    (h : isSettingKey key = some setting) : setting.name = key := by
  simpa using List.find?_some h

structure Url where
  protocol : String
  username : String
  password : String
  deriving DecidableEq, Repr

/-- `new URL(text)`, and whether `Intl.DateTimeFormat` takes a time zone. -/
structure Intl where
  url : String → Option Url
  timeZone : String → Bool

inductive SettingFailure where
  | badRequest (message : String)
  | conflict (message : String)
  deriving DecidableEq, Repr

/-- `[^\s@]`. -/
def isMailChar (c : Char) : Bool := !isSpace c && c != '@'

/-- `/^[^\s@]+@[^\s@]+\.[^\s@]+$/`: the dot is neither the first nor the last character after
the only `@`. -/
def isEmail (text : String) : Bool :=
  match text.toList.dropWhile isMailChar with
  | '@' :: domain =>
      text.toList.takeWhile isMailChar ≠ [] && domain.all isMailChar &&
        domain.tail.dropLast.contains '.'
  | _ => false

example : isEmail "help@erp.example" = true ∧ isEmail "help@erp" = false ∧
    isEmail "a@b@c.d" = false ∧ isEmail "a@.d" = false := by decide +kernel

def supportedCurrencies : List String := ["IDR", "USD", "SGD", "MYR", "PHP", "THB", "VND"]

def validateValue (rt : Intl) (key : PlatformSettingKey) (value : String) :
    Except SettingFailure Unit :=
  let normalized := trim value
  let length := (codeUnits normalized).length
  match key with
  | .platformName =>
      if length = 0 ∨ 100 < length then
        .error (.badRequest "Platform name must contain between 1 and 100 characters")
      else .ok ()
  | .supportEmail =>
      if normalized ≠ "" ∧ (254 < length ∨ isEmail normalized = false) then
        .error (.badRequest "Support email is invalid")
      else .ok ()
  | .supportUrl =>
      if normalized = "" then .ok ()
      else
        match rt.url normalized with
        | none => .error (.badRequest "Support URL must be a valid HTTPS URL")
        | some url =>
            if url.protocol ≠ "https:" ∨ url.username ≠ "" ∨ url.password ≠ "" then
              .error (.badRequest "Support URL must use HTTPS")
            else .ok ()
  | .defaultTimezone =>
      if rt.timeZone normalized then .ok ()
      else .error (.badRequest "Default timezone is invalid")
  | .defaultCurrency =>
      if normalized ∈ supportedCurrencies then .ok ()
      else .error (.badRequest "Default display currency is unsupported")

/-- Only the trimmed text counts. -/
theorem validateValue_trim (rt : Intl) (key : PlatformSettingKey) (value : String) :
    validateValue rt key (trim value) = validateValue rt key value := by
  unfold validateValue
  rw [trim_trim]

theorem validateValue_default {rt : Intl} (h : rt.timeZone "Asia/Jakarta" = true)
    (key : PlatformSettingKey) : validateValue rt key key.defaultValue = .ok () := by
  unfold validateValue
  cases key with
  | platformName => exact if_neg (by decide +kernel)
  | supportEmail => exact if_neg (by decide +kernel)
  | supportUrl => exact if_pos (by decide +kernel)
  | defaultTimezone =>
      have htrim : trim "Asia/Jakarta" = "Asia/Jakarta" := by decide +kernel
      exact if_pos (htrim.symm ▸ h)
  | defaultCurrency => exact if_pos (by decide +kernel)

theorem trim_default (key : PlatformSettingKey) : trim key.defaultValue = key.defaultValue := by
  cases key <;> decide +kernel

/-- A `PlatformSetting` row. -/
structure PlatformSetting where
  key : String
  value : String
  version : Nat
  deriving DecidableEq, Repr

/-- A `PlatformAuditLog` row with metadata of type `M`. -/
structure PlatformAuditLog (M : Type) where
  actorPlatformIdentityId : String
  actorType : String
  action : String
  resourceType : String
  resourceId : String
  targetTenantId : Option String
  outcome : String
  metadata : M
  deriving DecidableEq, Repr

/-- `PlatformAuditLogService.create`. -/
def PlatformAuditLog.create {M : Type} (platformIdentityId action resourceType resourceId : String)
    (targetTenantId : Option String) (metadata : M) : PlatformAuditLog M where
  actorPlatformIdentityId := platformIdentityId
  actorType := "PLATFORM_IDENTITY"
  action := action
  resourceType := resourceType
  resourceId := resourceId
  targetTenantId := targetTenantId
  outcome := "SUCCESS"
  metadata := metadata

structure SettingMetadata where
  settingKey : String
  previousVersion : Nat
  newVersion : Nat
  deriving DecidableEq, Repr

abbrev SettingAudit := PlatformAuditLog SettingMetadata

/-- The arguments of `update`. -/
structure UpdateSetting where
  platformIdentityId : String
  key : String
  value : String
  expectedVersion : Nat
  deriving DecidableEq, Repr

/-- What `update` writes: the value, over the version it has found, if there was a row. -/
structure SettingPlan where
  key : PlatformSettingKey
  normalizedValue : String
  current : Option Nat
  deriving DecidableEq, Repr

namespace SettingPlan

def currentVersion (c : SettingPlan) : Nat := c.current.getD 0

def nextVersion (c : SettingPlan) : Nat := c.currentVersion + 1

end SettingPlan

/-- The version of a setting; one without a row has version 0. -/
def versionOf (row : Option PlatformSetting) : Nat := (row.map PlatformSetting.version).getD 0

def changed : SettingFailure := .conflict "Platform setting changed; reload before updating"

namespace PlatformSettingsService

/-- What `update` does before it writes. -/
def prepare (rt : Intl) (r : UpdateSetting) (row : Option PlatformSetting) :
    Except SettingFailure SettingPlan :=
  match isSettingKey r.key with
  | none => .error (.badRequest "Unsupported platform setting")
  | some key =>
      match validateValue rt key (trim r.value) with
      | .error e => .error e
      | .ok () =>
          if versionOf row ≠ r.expectedVersion then .error changed
          else .ok ⟨key, trim r.value, row.map PlatformSetting.version⟩

/-- `updateMany` with the version in its condition, or `createMany` that skips duplicates. -/
def write (c : SettingPlan) (row : Option PlatformSetting) : Option PlatformSetting :=
  match c.current, row with
  | some version, some existing =>
      if existing.version = version then
        some ⟨existing.key, c.normalizedValue, c.nextVersion⟩
      else none
  | none, none => some ⟨c.key.name, c.normalizedValue, c.nextVersion⟩
  | _, _ => none

def audit (r : UpdateSetting) (c : SettingPlan) : SettingAudit :=
  .create r.platformIdentityId "super-admin.platform-setting.updated" "PLATFORM_SETTING"
    c.key.name none ⟨c.key.name, c.currentVersion, c.nextVersion⟩

def update (rt : Intl) :
    GuardedWrite String PlatformSetting SettingAudit UpdateSetting SettingPlan Unit where
  key := UpdateSetting.key
  plan := fun r _ row => (prepare rt r row).toOption
  write := fun _ c row => write c row
  entries := fun r c => [audit r c]

/-- An entry of `list`. -/
structure Listed where
  key : String
  label : String
  value : String
  version : Nat
  deriving DecidableEq, Repr

abbrev SettingStore := GuardedStore String PlatformSetting SettingAudit

def list (s : SettingStore) : List Listed :=
  PlatformSettingKey.all.map fun key =>
    let record := s.row key.name
    ⟨key.name, key.label, (record.map PlatformSetting.value).getD key.defaultValue,
      versionOf record⟩

abbrev SettingEvent := Event UpdateSetting Unit Empty

/-- What calls of `update` make of a database with these settings and this audit log. -/
def after (rt : Intl) (rows : List PlatformSetting) (log : List SettingAudit)
    (es : List SettingEvent) :
    World SettingStore (GuardedCall SettingAudit UpdateSetting SettingPlan) :=
  (update rt).system.run (.idle (.opening PlatformSetting.key rows log)) es

theorem prepare_ok {rt : Intl} {r : UpdateSetting} {row : Option PlatformSetting} {c : SettingPlan}
    (h : prepare rt r row = .ok c) :
    c.key.name = r.key ∧ c.normalizedValue = trim r.value ∧
      validateValue rt c.key c.normalizedValue = .ok () ∧ versionOf row = r.expectedVersion ∧
      c.current = row.map PlatformSetting.version := by
  unfold prepare at h
  cases hkey : isSettingKey r.key with
  | none =>
      rw [hkey] at h
      cases h
  | some key =>
      rw [hkey] at h
      dsimp only at h
      cases hvalid : validateValue rt key (trim r.value) with
      | error e =>
          rw [hvalid] at h
          cases h
      | ok u =>
          rw [hvalid] at h
          dsimp only at h
          split at h
          · cases h
          · rename_i hversion
            cases h
            exact ⟨name_of_isSettingKey hkey, rfl, hvalid, not_not.mp hversion, rfl⟩

/-- A write makes the next version of the version that is there. -/
theorem write_eq_some {c : SettingPlan} {row : Option PlatformSetting} {v : PlatformSetting}
    (h : write c row = some v) :
    versionOf row = c.currentVersion ∧ v.version = c.nextVersion ∧ v.value = c.normalizedValue ∧
      v.key = (row.map PlatformSetting.key).getD c.key.name := by
  obtain ⟨key, value, current⟩ := c
  unfold write at h
  cases current with
  | none =>
      cases row with
      | none =>
          cases h
          exact ⟨rfl, rfl, rfl, rfl⟩
      | some existing => cases h
  | some version =>
      cases row with
      | none => cases h
      | some existing =>
          dsimp only at h
          split at h
          · rename_i hversion
            cases h
            exact ⟨hversion, rfl, rfl, rfl⟩
          · cases h

variable {rt : Intl} {history : List (Effect UpdateSetting SettingPlan)}
  {row row' : Option PlatformSetting}

/-- Writes one after the other make one version after the other. -/
theorem versions_of_replays (h : (update rt).Replays row history row') :
    history.map (fun d => d.plan.nextVersion) = List.range' (versionOf row + 1) history.length ∧
      versionOf row' = versionOf row + history.length := by
  induction history generalizing row with
  | nil =>
      cases h
      exact ⟨rfl, rfl⟩
  | cons d rest ih =>
      obtain ⟨v, hwrite, hrest⟩ := h
      obtain ⟨hcurrent, hversion, -⟩ := write_eq_some hwrite
      have hnext : d.plan.nextVersion = versionOf row + 1 := congrArg (· + 1) hcurrent.symm
      have hv : versionOf (some v) = versionOf row + 1 := hversion.trans hnext
      obtain ⟨hversions, hlast⟩ := ih hrest
      rw [hv] at hversions hlast
      rw [List.map_cons, List.length_cons, List.range'_succ, hversions, hnext]
      exact ⟨rfl, by omega⟩

/-- The last write is the one the row shows. -/
theorem row_of_replays {d : Effect UpdateSetting SettingPlan}
    (h : (update rt).Replays row (history ++ [d]) row') :
    ∃ v, row' = some v ∧ v.version = d.plan.nextVersion ∧ v.value = d.plan.normalizedValue := by
  obtain ⟨mid, -, v, hwrite, hrow⟩ := (update rt).replays_concat h
  obtain ⟨-, hversion, hvalue, -⟩ := write_eq_some hwrite
  exact ⟨v, hrow, hversion, hvalue⟩

end PlatformSettingsService

end Platform
end ERP
