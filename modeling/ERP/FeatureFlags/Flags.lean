import ERP.Lib.Tasks

/-!
# Feature flags

`FeatureFlagAggregate`, and the calls of `FeatureFlagService` on one flag step by step:
`evaluate` reads the cache, else the database, and fills the cache with what it has
read; the other calls read the flag, save it and delete the cache entry.  The row of
another flag and its cache entry are other keys, which no call on this flag touches.
-/

namespace ERP
namespace FeatureFlags

open Lib

inductive Operator where
  | eq | neq | in_ | contains
  deriving DecidableEq, Repr

structure TargetingRule where
  field : String
  operator : Operator
  value : String ⊕ List String
  deriving DecidableEq, Repr

structure Override where
  outletId : Option String
  userId : Option String
  enabled : Bool
  deriving DecidableEq, Repr

/-- `FeatureFlagState`; the payload is kept and not looked at. -/
structure FeatureFlag where
  id : String
  key : String
  tenantId : String
  enabled : Bool
  targetingRules : List TargetingRule
  overrides : List Override
  deletedAt : Option Int
  deriving DecidableEq, Repr

/-- Of a value of the context or the payload: its text, or `none` if it is no text. -/
abbrev ContextValue := Option String

/-- The context and payload of a call; an `outletId` can be missing or null. -/
structure EvaluationContext where
  tenantId : String
  outletId : Option ContextValue
  userId : Option String
  payload : Option (List (String × ContextValue))
  deriving DecidableEq, Repr

inductive FlagFailure where
  | notFound (id : String)
  | enableArchived
  | disableArchived
  | alreadyArchived
  deriving DecidableEq, Repr

def FlagFailure.message : FlagFailure → String
  | .notFound id => "Feature flag with id \"" ++ id ++ "\" not found"
  | .enableArchived => "Cannot enable an archived feature flag"
  | .disableArchived => "Cannot disable an archived feature flag"
  | .alreadyArchived => "Feature flag is already archived"

/-- `!text` of an optional text. -/
def missing (text : Option String) : Bool := text = none ∨ text = some ""

def resolveContextValue (context : EvaluationContext) (field : String) : Option ContextValue :=
  if field = "tenantId" then some (some context.tenantId)
  else if field = "outletId" then context.outletId
  else if field = "userId" then context.userId.map some
  else if "payload.".isPrefixOf field then
    (context.payload.getD []).lookup (String.ofList (field.toList.drop 8))
  else none

/-- `includes` of strings. -/
def includes (value : List Char) : List Char → Bool
  | [] => value.isEmpty
  | c :: rest => value.isPrefixOf (c :: rest) || includes value rest

/-- One rule of `evaluateTargetingRules`. -/
def TargetingRule.holds (context : EvaluationContext) (rule : TargetingRule) : Bool :=
  match resolveContextValue context rule.field with
  | none => false
  | some actual =>
      match rule.operator, rule.value with
      | .eq, .inl value => actual = some value
      | .eq, .inr _ => false
      | .neq, .inl value => actual ≠ some value
      | .neq, .inr _ => true
      | .in_, .inl _ => false
      | .in_, .inr values => actual.any values.contains
      | .contains, .inl value => actual.any fun text => includes value.toList text.toList
      | .contains, .inr _ => false

namespace FeatureFlag

def enable (flag : FeatureFlag) : Except FlagFailure FeatureFlag :=
  if flag.deletedAt ≠ none then .error .enableArchived else .ok { flag with enabled := true }

def disable (flag : FeatureFlag) : Except FlagFailure FeatureFlag :=
  if flag.deletedAt ≠ none then .error .disableArchived else .ok { flag with enabled := false }

def archive (flag : FeatureFlag) (now : Int) : Except FlagFailure FeatureFlag :=
  if flag.deletedAt ≠ none then .error .alreadyArchived else .ok { flag with deletedAt := some now }

def restore (flag : FeatureFlag) : Except FlagFailure FeatureFlag :=
  .ok { flag with deletedAt := none }

/-- Overrides of the user, then of the outlet, then the targeting rules, and by default
the flag itself. -/
def evaluate (flag : FeatureFlag) (context : EvaluationContext) : Bool :=
  if flag.deletedAt ≠ none then false
  else if flag.tenantId ≠ context.tenantId then false
  else
    match flag.overrides.find? fun o => o.userId = context.userId ∧ missing o.outletId with
    | some o => o.enabled
    | none =>
        match flag.overrides.find? fun o =>
          o.outletId.map some = context.outletId ∧ missing o.userId with
        | some o => o.enabled
        | none =>
            if flag.targetingRules ≠ [] then flag.targetingRules.all (TargetingRule.holds context)
            else flag.enabled

def isEnabled (flag : FeatureFlag) : Bool := flag.enabled ∧ flag.deletedAt = none

end FeatureFlag

/-- The names of one flag.  A query finds its row by `id` and `tenantId`, or by `key` and
`tenantId`, which are unique; the cache entry is named by `tenantId` and `key`. -/
structure FlagName where
  id : String
  key : String
  tenantId : String
  deriving DecidableEq, Repr

/-- The columns of the row of a flag that change; rules and overrides have none. -/
structure FlagRow where
  enabled : Bool
  deletedAt : Option Int
  deriving DecidableEq, Repr

def FlagRow.toAggregate (flag : FlagName) (row : FlagRow) : FeatureFlag where
  id := flag.id
  key := flag.key
  tenantId := flag.tenantId
  enabled := row.enabled
  targetingRules := []
  overrides := []
  deletedAt := row.deletedAt

/-- The row of one flag and its cache entry. -/
structure FlagStore where
  row : Option FlagRow
  cached : Option Bool
  deriving DecidableEq, Repr

namespace FlagStore

def findById (s : FlagStore) (flag : FlagName) : Option FeatureFlag :=
  (s.row.filter fun row => row.deletedAt = none).map (FlagRow.toAggregate flag)

def findByIdIncludingArchived (s : FlagStore) (flag : FlagName) : Option FeatureFlag :=
  s.row.map (FlagRow.toAggregate flag)

def findByKey (s : FlagStore) (flag : FlagName) : Option FeatureFlag :=
  (s.row.filter fun row => row.deletedAt = none).map (FlagRow.toAggregate flag)

/-- `upsert`: the row is updated, or created. -/
def save (s : FlagStore) (found : FeatureFlag) : FlagStore :=
  { s with row := some ⟨found.enabled, found.deletedAt⟩ }

def hardDelete (s : FlagStore) : FlagStore :=
  { s with row := none }

/-- What the stored flag evaluates to. -/
def result (s : FlagStore) (flag : FlagName) (context : EvaluationContext) : Bool :=
  match s.findByKey flag with
  | none => false
  | some found => found.evaluate { context with tenantId := flag.tenantId }

end FlagStore

inductive Mutation where
  | enable | disable | archive | restore
  | update (enabled : Option Bool)
  deriving DecidableEq, Repr

def Mutation.find (s : FlagStore) (flag : FlagName) : Mutation → Option FeatureFlag
  | .restore => s.findByIdIncludingArchived flag
  | _ => s.findById flag

def Mutation.apply (now : Int) (found : FeatureFlag) : Mutation → Except FlagFailure FeatureFlag
  | .enable => found.enable
  | .disable => found.disable
  | .archive => found.archive now
  | .restore => found.restore
  | .update (some true) => found.enable
  | .update (some false) => found.disable
  | .update none => .ok found

/-- Where a call stands. -/
inductive FlagCall where
  | readCache (context : EvaluationContext)
  | readFlag (context : EvaluationContext)
  | writeCache (result : Bool)
  | evaluated (result : Bool)
  | find (mutation : Mutation)
  | save (found : FeatureFlag)
  | invalidate
  | hardDelete
  | mutated
  | rejected (failure : FlagFailure)
  deriving DecidableEq, Repr

/-- What a step finds outside the store: whether the cache answers, and the time. -/
structure FlagAnswer where
  redis : Bool
  now : Int
  deriving DecidableEq, Repr

/-- One step.  The subscriber of the flag events catches what fails in it, so publishing
them, which comes between `save` and `invalidate`, does not fail. -/
def FlagCall.next (flag : FlagName) (a : FlagAnswer) (k : FlagCall) (s : FlagStore) :
    FlagCall × FlagStore :=
  match k with
  | .readCache context =>
      match if a.redis then s.cached else none with
      | some result => (.evaluated result, s)
      | none => (.readFlag context, s)
  | .readFlag context =>
      match s.findByKey flag with
      | none => (.evaluated false, s)
      | some found =>
          (.writeCache (found.evaluate { context with tenantId := flag.tenantId }), s)
  | .writeCache result =>
      (.evaluated result, if a.redis then { s with cached := some result } else s)
  | .evaluated result => (.evaluated result, s)
  | .find mutation =>
      match mutation.find s flag with
      | none => (.rejected (.notFound flag.id), s)
      | some found =>
          match mutation.apply a.now found with
          | .error failure => (.rejected failure, s)
          | .ok found => (.save found, s)
  | .save found => (.invalidate, s.save found)
  | .invalidate => (.mutated, if a.redis then { s with cached := none } else s)
  -- `hardDelete` leaves the cache as it is
  | .hardDelete => (.mutated, s.hardDelete)
  | .mutated => (.mutated, s)
  | .rejected failure => (.rejected failure, s)

inductive FlagRequest where
  | evaluate (context : EvaluationContext)
  | mutate (mutation : Mutation)
  | hardDelete
  deriving DecidableEq, Repr

def FlagRequest.start : FlagRequest → FlagCall
  | .evaluate context => .readCache context
  | .mutate mutation => .find mutation
  | .hardDelete => .hardDelete

/-- Calls on one flag; a cache entry expires at any time. -/
def flagCalls (flag : FlagName) : System FlagStore FlagRequest FlagCall FlagAnswer Unit where
  start := FlagRequest.start
  next := fun _ => FlagCall.next flag
  act := fun _ s => { s with cached := none }

abbrev FlagEvent := Event FlagRequest FlagAnswer Unit

end FeatureFlags
end ERP
