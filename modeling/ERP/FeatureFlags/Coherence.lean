import Mathlib.Data.List.Induction
import Mathlib.Tactic.IntervalCases
import ERP.FeatureFlags.Flags

/-!
# What a call of `evaluate` returns after a mutation

A mutating call returns with its step at `invalidate`, or at `hardDelete`.  From then on
a call of `evaluate` should return what the stored flag evaluates to, now or at some
moment since that return.  Three steps can break it, and no other: the cache is filled
with a result read before the return, the entry is not deleted because the cache does not
answer, or because `hardDelete` does not delete it.
-/

namespace ERP
namespace FeatureFlags

open Lib

/-- The last step of a mutating call that has changed the row. -/
def FlagCall.returns : FlagCall → Prop
  | .invalidate | .hardDelete => True
  | _ => False

/-- The event is the return of a mutating call. -/
def Returns (w : World FlagStore FlagCall) (e : FlagEvent) : Prop :=
  ∃ m a k, e = .step m a ∧ w.tasks m = some ⟨k, false⟩ ∧ k.returns

/-- `result` is what the stored flag evaluates to after some of the events of `since`, the
first of them at least. -/
def ResultSince (flag : FlagName) (w : World FlagStore FlagCall) (since : List FlagEvent)
    (result : Bool) : Prop :=
  ∃ n < since.length, ∀ context,
    result = ((flagCalls flag).run w (since.take (n + 1))).store.result flag context

/-- After the return `e` of a mutating call, a call of `evaluate` that starts later returns
what the stored flag evaluates to at a moment since that return. -/
def Coherent (flag : FlagName) (start : FlagStore) (es : List FlagEvent) : Prop :=
  ∀ before e later, es = before ++ e :: later →
    Returns ((flagCalls flag).run (World.idle start) before) e →
    ∀ p, ((flagCalls flag).run (World.idle start) (before ++ [e])).at_ p = none →
      ∀ result, ((flagCalls flag).run (World.idle start) es).at_ p = some (.evaluated result) →
        ResultSince flag ((flagCalls flag).run (World.idle start) before) (e :: later) result

/-- The entry, if there is one, is what the flag evaluates to. -/
def FlagStore.Right (flag : FlagName) (s : FlagStore) : Prop :=
  ∀ result, s.cached = some result → ∀ context, result = s.result flag context

/-- What a step must meet in the run before it: no mutating call has returned since the
stored flag last evaluated to the result the cache is filled with, and an entry that the
return of a mutating call leaves is right. -/
def InTime (flag : FlagName) (start : FlagStore) (before : List FlagEvent) : FlagEvent → Prop
  | .step p a =>
      ∀ k, ((flagCalls flag).run (World.idle start) before).tasks p = some ⟨k, false⟩ →
        match k with
        | .writeCache result => a.redis = true →
            ∃ past since, before = past ++ since ∧
              (∀ context, result =
                ((flagCalls flag).run (World.idle start) past).store.result flag context) ∧
              (flagCalls flag).Follows (fun w e => ¬ Returns w e)
                ((flagCalls flag).run (World.idle start) past) since
        | .invalidate => a.redis = false →
            ((flagCalls flag).run (World.idle start) before).store.Right flag
        | .hardDelete =>
            ((flagCalls flag).run (World.idle start) before).store.hardDelete.Right flag
        | _ => True
  | _ => True

def EveryStepInTime (flag : FlagName) (start : FlagStore) (es : List FlagEvent) : Prop :=
  ∀ before e later, es = before ++ e :: later → InTime flag start before e

/-- The stored columns decide: no rule and no override is stored. -/
theorem evaluate_toAggregate (flag : FlagName) (row : FlagRow) (context : EvaluationContext) :
    (row.toAggregate flag).evaluate { context with tenantId := flag.tenantId } =
      (row.toAggregate flag).isEnabled := by
  cases hdel : row.deletedAt with
  | none => simp [FlagRow.toAggregate, FeatureFlag.evaluate, FeatureFlag.isEnabled, hdel]
  | some t => simp [FlagRow.toAggregate, FeatureFlag.evaluate, FeatureFlag.isEnabled, hdel]

/-- The result is that of every other context. -/
theorem result_eq (flag : FlagName) (s : FlagStore) (context : EvaluationContext) :
    s.result flag context = (s.findByKey flag).any FeatureFlag.isEnabled := by
  rw [FlagStore.result, FlagStore.findByKey]
  cases s.row.filter fun row => row.deletedAt = none with
  | none => rfl
  | some row => exact evaluate_toAggregate flag row context

section

variable {flag : FlagName} {w : World FlagStore FlagCall}

theorem ResultSince.append {since : List FlagEvent} {result : Bool}
    (h : ResultSince flag w since result) (e : FlagEvent) :
    ResultSince flag w (since ++ [e]) result := by
  obtain ⟨n, hn, hr⟩ := h
  refine ⟨n, ?_, fun context => ?_⟩
  · rw [List.length_append]
    omega
  · rw [List.take_append_of_le_length (by omega)]
    exact hr context

/-- What the stored flag evaluates to now is one of the results. -/
theorem ResultSince.now {since : List FlagEvent} {result : Bool} (hsince : since ≠ [])
    (hr : ∀ context, result = ((flagCalls flag).run w since).store.result flag context) :
    ResultSince flag w since result := by
  have hlen : 0 < since.length := List.length_pos_iff.mpr hsince
  refine ⟨since.length - 1, by omega, fun context => ?_⟩
  rw [List.take_of_length_le (by omega)]
  exact hr context

end

/-- The result a call of `evaluate` has. -/
def FlagCall.held : FlagCall → Option Bool
  | .writeCache result | .evaluated result => some result
  | _ => none

/-- An entry that is there after a step was there before, or the step fills it. -/
theorem next_cached {flag : FlagName} {a : FlagAnswer} {k : FlagCall} {s : FlagStore}
    {result : Bool} (h : (k.next flag a s).2.cached = some result) :
    s.cached = some result ∨ k = .writeCache result ∧ a.redis = true := by
  cases k with
  | readCache context =>
      simp only [FlagCall.next] at h
      split at h <;> exact .inl h
  | readFlag context =>
      simp only [FlagCall.next] at h
      split at h <;> exact .inl h
  | writeCache r =>
      cases hredis : a.redis with
      | true =>
          simp only [FlagCall.next, hredis, if_true] at h
          cases h
          exact .inr ⟨rfl, rfl⟩
      | false => exact .inl (by simpa [FlagCall.next, hredis] using h)
  | find mutation =>
      simp only [FlagCall.next] at h
      split at h
      · exact .inl h
      · split at h <;> exact .inl h
  | invalidate =>
      cases hredis : a.redis with
      | true => simp [FlagCall.next, hredis] at h
      | false => exact .inl (by simpa [FlagCall.next, hredis] using h)
  | evaluated r => exact .inl h
  | save found => exact .inl h
  | hardDelete => exact .inl h
  | mutated => exact .inl h
  | rejected failure => exact .inl h

/-- A result comes from the cache, or from the flag as it is stored. -/
theorem next_held {flag : FlagName} {a : FlagAnswer} {k : FlagCall} {s : FlagStore}
    {result : Bool} (h : (k.next flag a s).1.held = some result) :
    k.held = some result ∨ s.cached = some result ∨
      (k.next flag a s).2 = s ∧ ∀ context, result = s.result flag context := by
  cases k with
  | readCache context =>
      simp only [FlagCall.next] at h ⊢
      split at h
      · next r hr =>
          cases h
          cases hredis : a.redis with
          | true => exact .inr (.inl (by simpa [hredis] using hr))
          | false => simp [hredis] at hr
      · cases h
  | readFlag context =>
      simp only [FlagCall.next] at h ⊢
      have hr (c : EvaluationContext) : s.result flag c = s.result flag context :=
        (result_eq flag s c).trans (result_eq flag s context).symm
      cases hfound : s.findByKey flag with
      | none =>
          rw [hfound] at h
          cases h
          refine .inr (.inr ⟨rfl, fun c => ?_⟩)
          rw [hr c, FlagStore.result, hfound]
      | some found =>
          rw [hfound] at h
          cases h
          refine .inr (.inr ⟨rfl, fun c => ?_⟩)
          rw [hr c, FlagStore.result, hfound]
  | find mutation =>
      simp only [FlagCall.next] at h
      split at h
      · cases h
      · split at h <;> cases h
  | writeCache r => exact .inl h
  | evaluated r => exact .inl h
  | invalidate => cases h
  | save found => cases h
  | hardDelete => cases h
  | mutated => cases h
  | rejected failure => cases h

/-- What the cache and the calls that started since `w` hold: results of the flag as it
was stored at a moment since `w`. -/
structure Holds (flag : FlagName) (w : World FlagStore FlagCall) (since : List FlagEvent)
    (old : Nat → Prop) (v : World FlagStore FlagCall) : Prop where
  cached : ∀ result, v.store.cached = some result → ResultSince flag w since result
  held : ∀ p k result, ¬ old p → v.at_ p = some k → k.held = some result →
    ResultSince flag w since result

section

variable {flag : FlagName} {w : World FlagStore FlagCall} {since : List FlagEvent}
  {old : Nat → Prop}

theorem Holds.stay {v v' : World FlagStore FlagCall} (h : Holds flag w since old v)
    (e : FlagEvent) (hcached : ∀ result, v'.store.cached = some result →
      v.store.cached = some result)
    (hat : v'.at_ = v.at_) : Holds flag w (since ++ [e]) old v' where
  cached := fun result hr => (h.cached result (hcached result hr)).append e
  held := fun p k result hp hk hr => (h.held p k result hp (by rw [← hat]; exact hk) hr).append e

/-- One event, if what it fills the cache with is a result since `w`. -/
theorem Holds.exec {v : World FlagStore FlagCall} (h : Holds flag w since old v)
    (hv : (flagCalls flag).run w since = v) (hsince : since ≠ []) (e : FlagEvent)
    (hfill : ∀ p a result, e = .step p a → v.tasks p = some ⟨.writeCache result, false⟩ →
      a.redis = true → ResultSince flag w since result) :
    Holds flag w (since ++ [e]) old ((flagCalls flag).exec v e) := by
  obtain ⟨p, r, -, -, hs, ha⟩ | ⟨p, a, k, he, htask, hk, hs, ha⟩ | ⟨o, -, hs, ha⟩ |
    ⟨p, k, -, hk, hs, ha⟩ | ⟨hs, ha⟩ := (flagCalls flag).exec_cases v e
  · refine ⟨fun result hr => ?_, fun q k result hq hk hr => ?_⟩
    · rw [hs] at hr
      exact (h.cached result hr).append e
    · rw [ha] at hk
      by_cases hqp : q = p
      · rw [hqp, Function.update_self] at hk
        cases hk
        cases r <;> cases hr
      · rw [Function.update_of_ne hqp] at hk
        exact (h.held q k result hq hk hr).append e
  · refine ⟨fun result hr => ?_, fun q k' result hq hk' hr => ?_⟩
    · rw [hs] at hr
      obtain hr | ⟨hwrite, hredis⟩ := next_cached hr
      · exact (h.cached result hr).append e
      · rw [hwrite] at htask
        exact (hfill p a result he htask hredis).append e
    · rw [ha] at hk'
      by_cases hqp : q = p
      · rw [hqp] at hq
        rw [hqp, Function.update_self] at hk'
        cases hk'
        obtain hr | hr | ⟨hstore, hr⟩ := next_held hr
        · exact (h.held p k result hq hk hr).append e
        · exact (h.cached result hr).append e
        · refine (ResultSince.now hsince fun context => ?_).append e
          rw [hv]
          exact hr context
      · rw [Function.update_of_ne hqp] at hk'
        exact (h.held q k' result hq hk' hr).append e
  · refine h.stay e (fun result hr => ?_) ha
    rw [hs] at hr
    cases hr
  · refine h.stay e (fun result hr => ?_) ?_
    · rw [hs] at hr
      exact hr
    · rw [ha]
      show Function.update v.at_ p (some k) = v.at_
      rw [← hk, Function.update_eq_self]
  · refine h.stay e (fun result hr => ?_) ha
    rw [hs] at hr
    exact hr

/-- A return leaves no entry, or one that is right. -/
theorem Holds.of_return {e : FlagEvent} (he : Returns w e)
    (hinvalidate : ∀ p a, e = .step p a → w.tasks p = some ⟨.invalidate, false⟩ →
      a.redis = false → w.store.Right flag)
    (hdelete : ∀ p a, e = .step p a → w.tasks p = some ⟨.hardDelete, false⟩ →
      w.store.hardDelete.Right flag) :
    Holds flag w [e] (fun p => ((flagCalls flag).exec w e).at_ p ≠ none)
      ((flagCalls flag).exec w e) := by
  obtain ⟨m, a, k, rfl, htask, hk⟩ := he
  have hstore : ((flagCalls flag).exec w (.step m a)).store = (k.next flag a w.store).2 := by
    simp only [System.exec, htask]
    rfl
  have hright : (k.next flag a w.store).2.Right flag := by
    cases k with
    | invalidate =>
        cases hredis : a.redis with
        | true =>
            intro result hr
            simp [FlagCall.next, hredis] at hr
        | false =>
            have h := hinvalidate m a rfl htask hredis
            simpa [FlagCall.next, hredis] using h
    | hardDelete => exact hdelete m a rfl htask
    | _ => exact hk.elim
  refine ⟨fun result hr => ?_, fun p k' result hp hk' _ => ?_⟩
  · refine ResultSince.now (List.cons_ne_nil _ _) fun context => ?_
    rw [hstore] at hr
    show result = ((flagCalls flag).exec w (.step m a)).store.result flag context
    rw [hstore]
    exact hright result hr context
  · rw [hk'] at hp
    exact absurd (Option.some_ne_none k') hp

end

section

variable {flag : FlagName} {start : FlagStore}

/-- No mutating call has returned since a moment: that moment is not before the last
return. -/
theorem resultSince_of_past {before past since mid : List FlagEvent} {e : FlagEvent}
    {result : Bool} (he : Returns ((flagCalls flag).run (World.idle start) before) e)
    (hsplit : before ++ e :: mid = past ++ since)
    (hr : ∀ context, result =
      ((flagCalls flag).run (World.idle start) past).store.result flag context)
    (hnone : (flagCalls flag).Follows (fun w e => ¬ Returns w e)
      ((flagCalls flag).run (World.idle start) past) since) :
    ResultSince flag ((flagCalls flag).run (World.idle start) before) (e :: mid) result := by
  obtain ⟨late, hpast, hlate⟩ | ⟨early, hbefore, hsince⟩ := List.append_eq_append_iff.mp hsplit
  · cases late with
    | nil =>
        rw [List.append_nil] at hpast
        rw [hpast, ← show e :: mid = since from hlate] at hnone
        exact absurd he hnone.1
    | cons e' late =>
        obtain ⟨rfl, htail⟩ := List.cons_eq_cons.mp hlate
        have hmid : mid = late ++ since := htail
        refine ⟨late.length, ?_, fun context => ?_⟩
        · rw [hmid, List.length_cons, List.length_append]
          omega
        · have htake : (e :: mid).take (late.length + 1) = e :: late := by
            rw [hmid, List.take_succ_cons, List.take_left]
          rw [htake, ← System.run_append, ← hpast]
          exact hr context
  · rw [hsince] at hnone
    have hlast := (flagCalls flag).follows_append _ _ hnone
    rw [← System.run_append, ← hbefore] at hlast
    exact absurd he hlast.1

theorem holds_since {before : List FlagEvent} {e : FlagEvent}
    (he : Returns ((flagCalls flag).run (World.idle start) before) e) (later : List FlagEvent) :
    EveryStepInTime flag start (before ++ e :: later) →
      Holds flag ((flagCalls flag).run (World.idle start) before) (e :: later)
        (fun p => ((flagCalls flag).run (World.idle start) (before ++ [e])).at_ p ≠ none)
        ((flagCalls flag).run (World.idle start) (before ++ e :: later)) := by
  induction later using List.reverseRecOn with
  | nil =>
      intro hok
      have hin := hok before e [] rfl
      rw [System.run_append]
      refine Holds.of_return he (fun p a hstep htask hredis => ?_) (fun p a hstep htask => ?_)
      · rw [hstep] at hin
        exact hin _ htask hredis
      · rw [hstep] at hin
        exact hin _ htask
  | append_singleton mid e' ih =>
      intro hok
      have hmid : EveryStepInTime flag start (before ++ e :: mid) := by
        intro before' x later hsplit
        refine hok before' x (later ++ [e']) ?_
        rw [← List.cons_append, ← List.append_assoc, hsplit, List.append_assoc, List.cons_append]
      have hin := hok (before ++ e :: mid) e' [] (by simp)
      have hlast := (ih hmid).exec (by rw [System.run_append]) (List.cons_ne_nil _ _) e'
        fun p a result hstep htask hredis => by
          rw [hstep] at hin
          obtain ⟨past, since, hsplit, hr, hnone⟩ := hin _ htask hredis
          exact resultSince_of_past he hsplit hr hnone
      have hrun : (flagCalls flag).run (World.idle start) (before ++ e :: (mid ++ [e'])) =
          (flagCalls flag).exec
            ((flagCalls flag).run (World.idle start) (before ++ e :: mid)) e' := by
        rw [← List.cons_append, ← List.append_assoc, System.run_append]
        rfl
      rw [hrun]
      exact hlast

/-- Every call of `evaluate` that starts after a mutating call has returned returns what
the stored flag evaluates to at a moment since then, if every step is in time. -/
theorem evaluate_coherent (flag : FlagName) (start : FlagStore) (es : List FlagEvent)
    (hok : EveryStepInTime flag start es) : Coherent flag start es := by
  intro before e later hsplit he p hp result hresult
  rw [hsplit] at hok hresult
  have h := holds_since he later hok
  exact h.held p _ result (fun hold => hold hp) hresult rfl

end

/-- A flag that is enabled, and its entry says so. -/
def enabledFlag : FlagStore := ⟨some ⟨true, none⟩, some true⟩

def someFlag : FlagName := ⟨"flag-a", "KITCHEN_MODULE", "tenant-a"⟩

def someContext : EvaluationContext := ⟨"tenant-a", none, some "user-a", none⟩

def redisUp : FlagAnswer := ⟨true, 0⟩

/-- The flag is disabled, and a call evaluates it and fills the cache. -/
def disableThenEvaluate : List FlagEvent :=
  [.spawn 0 (.mutate .disable), .step 0 redisUp, .step 0 redisUp, .step 0 redisUp,
    .spawn 1 (.evaluate someContext), .step 1 redisUp, .step 1 redisUp, .step 1 redisUp]

/-- Of a list of events each is looked at in its place. -/
theorem everyStepInTime_of_get {flag : FlagName} {start : FlagStore} {es : List FlagEvent}
    (h : ∀ n (hn : n < es.length), InTime flag start (es.take n) (es.get ⟨n, hn⟩)) :
    EveryStepInTime flag start es := by
  intro before e later hsplit
  subst hsplit
  have hn : before.length < (before ++ e :: later).length := by
    rw [List.length_append, List.length_cons]
    omega
  have hin := h before.length hn
  rw [List.take_left] at hin
  simpa using hin

theorem evaluate_coherent_example : Coherent someFlag enabledFlag disableThenEvaluate := by
  refine evaluate_coherent someFlag enabledFlag _ (everyStepInTime_of_get fun n hn => ?_)
  have hlen : n < 8 := hn
  interval_cases n
  · trivial
  · intro k hk
    cases hk
    trivial
  · intro k hk
    cases hk
    trivial
  · intro k hk
    cases hk
    intro hredis
    cases hredis
  · trivial
  · intro k hk
    cases hk
    trivial
  · intro k hk
    cases hk
    trivial
  · intro k hk
    cases hk
    intro _
    refine ⟨disableThenEvaluate.take 7, [], rfl, fun context => ?_, trivial⟩
    rw [result_eq]
    rfl

/-- Call 1 reads the flag before it is disabled, and fills the cache after. -/
def lateFill : List FlagEvent :=
  [.act (), .spawn 1 (.evaluate someContext), .step 1 redisUp, .step 1 redisUp,
    .spawn 0 (.mutate .disable), .step 0 redisUp, .step 0 redisUp, .step 0 redisUp,
    .step 1 redisUp, .spawn 2 (.evaluate someContext), .step 2 redisUp]

/-- The flag is deleted while its entry says that it is enabled. -/
def deleteThenEvaluate : List FlagEvent :=
  [.spawn 0 .hardDelete, .step 0 redisUp, .spawn 1 (.evaluate someContext), .step 1 redisUp]

/-- The same value is served after the flag was disabled, and after it was deleted. -/
theorem stale_entry_served :
    ¬ Coherent someFlag enabledFlag lateFill ∧
      ¬ Coherent someFlag enabledFlag deleteThenEvaluate := by
  constructor
  · intro h
    obtain ⟨n, hn, hr⟩ := h (lateFill.take 7) (.step 0 redisUp) (lateFill.drop 8) rfl
      ⟨0, redisUp, .invalidate, rfl, rfl, trivial⟩ 2 rfl true (by decide +kernel)
    have hfalse : ∀ n < 4, ((flagCalls someFlag).run ((flagCalls someFlag).run
        (World.idle enabledFlag) (lateFill.take 7)) ((lateFill.drop 7).take (n + 1))).store.result
          someFlag someContext = false := by decide +kernel
    have htrue := hr someContext
    rw [show Event.step 0 redisUp :: lateFill.drop 8 = lateFill.drop 7 from rfl,
      hfalse n hn] at htrue
    cases htrue
  · intro h
    obtain ⟨n, hn, hr⟩ := h (deleteThenEvaluate.take 1) (.step 0 redisUp)
      (deleteThenEvaluate.drop 2) rfl ⟨0, redisUp, .hardDelete, rfl, rfl, trivial⟩ 1 rfl true
      (by decide +kernel)
    have hfalse : ∀ n < 3, ((flagCalls someFlag).run ((flagCalls someFlag).run
        (World.idle enabledFlag) (deleteThenEvaluate.take 1))
          ((deleteThenEvaluate.drop 1).take (n + 1))).store.result someFlag someContext =
            false := by decide +kernel
    have htrue := hr someContext
    rw [show Event.step 0 redisUp :: deleteThenEvaluate.drop 2 = deleteThenEvaluate.drop 1
      from rfl, hfalse n hn] at htrue
    cases htrue

end FeatureFlags
end ERP
