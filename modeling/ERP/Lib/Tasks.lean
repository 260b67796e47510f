import Mathlib.Logic.Function.Basic

/-!
# Calls that interleave

A call runs in steps.  Each step is one statement or one transaction against the
shared store, and between two steps of a call any other call may take its own.
A crash stops a call where it stands; a store with open transactions rolls back
the one of that call.  Transactions that are a whole call by themselves are the
actions.

`System.run` is a run of such calls under a schedule, given as the list of its
events.  Every prefix of a schedule is a schedule, so a property of
`System.run` for all schedules is one of every state reached.
-/

namespace ERP
namespace Lib

/-- A call, and whether it was stopped. -/
structure Task (κ : Type) where
  state : κ
  crashed : Bool

/-- The store and the calls made so far, by number. -/
structure World (σ κ : Type) where
  store : σ
  tasks : Nat → Option (Task κ)

/-- What calls do: where a request starts, what a step of a call does to its
state and to the store, what an action does to the store, and what is left of a
call and of the store when it crashes.  A step is given the number of its call and
the answer of whatever it asks outside the store. -/
structure System (σ ρ κ χ ω : Type) where
  start : ρ → κ
  next : Nat → χ → κ → σ → κ × σ
  act : ω → σ → σ
  stop : Nat → κ → σ → κ × σ := fun _ k s => (k, s)

inductive Event (ρ χ ω : Type) where
  | spawn (call : Nat) (request : ρ)
  | step (call : Nat) (answer : χ)
  | crash (call : Nat)
  | act (action : ω)
  deriving DecidableEq, Repr

namespace World

variable {σ κ : Type}

/-- A store on which no call was made yet. -/
def idle (store : σ) : World σ κ := ⟨store, fun _ => none⟩

/-- Where a call stands, crashed or not. -/
def at_ (w : World σ κ) (call : Nat) : Option κ := (w.tasks call).map Task.state

@[simp] theorem idle_store (s : σ) : (idle s : World σ κ).store = s := rfl

@[simp] theorem idle_at (s : σ) : (idle s : World σ κ).at_ = fun _ => none := rfl

theorem at_update (w : World σ κ) (s : σ) (call : Nat) (t : Task κ) :
    (World.mk s (Function.update w.tasks call (some t))).at_ =
      Function.update w.at_ call (some t.state) := by
  funext p
  show (Function.update w.tasks call (some t) p).map Task.state = _
  by_cases hp : p = call
  · rw [hp, Function.update_self, Function.update_self]
    rfl
  · rw [Function.update_of_ne hp, Function.update_of_ne hp]
    rfl

end World

namespace System

variable {σ ρ κ χ ω : Type}

/-- One event.  A number names one call only, and only a call that runs takes
steps. -/
def exec (sys : System σ ρ κ χ ω) (w : World σ κ) : Event ρ χ ω → World σ κ
  | .spawn p r =>
      match w.tasks p with
      | none => { w with tasks := Function.update w.tasks p (some ⟨sys.start r, false⟩) }
      | some _ => w
  | .step p c =>
      match w.tasks p with
      | some ⟨k, false⟩ =>
          ⟨(sys.next p c k w.store).2,
            Function.update w.tasks p (some ⟨(sys.next p c k w.store).1, false⟩)⟩
      | _ => w
  | .crash p =>
      match w.tasks p with
      | some ⟨k, false⟩ =>
          ⟨(sys.stop p k w.store).2,
            Function.update w.tasks p (some ⟨(sys.stop p k w.store).1, true⟩)⟩
      | _ => w
  | .act o => { w with store := sys.act o w.store }

def run (sys : System σ ρ κ χ ω) (w : World σ κ) (es : List (Event ρ χ ω)) : World σ κ :=
  es.foldl sys.exec w

@[simp] theorem run_nil (sys : System σ ρ κ χ ω) (w : World σ κ) : sys.run w [] = w := rfl

@[simp] theorem run_cons (sys : System σ ρ κ χ ω) (w : World σ κ) (e : Event ρ χ ω)
    (es : List (Event ρ χ ω)) : sys.run w (e :: es) = sys.run (sys.exec w e) es := rfl

theorem run_append (sys : System σ ρ κ χ ω) (w : World σ κ) (es fs : List (Event ρ χ ω)) :
    sys.run w (es ++ fs) = sys.run (sys.run w es) fs := List.foldl_append

/-- What one event can do: a request is taken up, a call that runs takes its next
step, an action changes the store, a call that runs crashes, or the calls and the
store stay as they are. -/
theorem exec_cases (sys : System σ ρ κ χ ω) (w : World σ κ) (e : Event ρ χ ω) :
    (∃ p r, e = .spawn p r ∧ w.at_ p = none ∧ (sys.exec w e).store = w.store ∧
      (sys.exec w e).at_ = Function.update w.at_ p (some (sys.start r))) ∨
    (∃ p c k, e = .step p c ∧ w.tasks p = some ⟨k, false⟩ ∧ w.at_ p = some k ∧
      (sys.exec w e).store = (sys.next p c k w.store).2 ∧
      (sys.exec w e).at_ = Function.update w.at_ p (some (sys.next p c k w.store).1)) ∨
    (∃ o, e = .act o ∧ (sys.exec w e).store = sys.act o w.store ∧
      (sys.exec w e).at_ = w.at_) ∨
    (∃ p k, e = .crash p ∧ w.at_ p = some k ∧
      (sys.exec w e).store = (sys.stop p k w.store).2 ∧
      (sys.exec w e).at_ = Function.update w.at_ p (some (sys.stop p k w.store).1)) ∨
    ((sys.exec w e).store = w.store ∧ (sys.exec w e).at_ = w.at_) := by
  have hat {p : Nat} {k : κ} {b : Bool} (ht : w.tasks p = some ⟨k, b⟩) : w.at_ p = some k := by
    show (w.tasks p).map Task.state = some k
    rw [ht]
    rfl
  have hstay (h : sys.exec w e = w) :
      (sys.exec w e).store = w.store ∧ (sys.exec w e).at_ = w.at_ := by
    rw [h]
    exact ⟨rfl, rfl⟩
  cases e with
  | spawn p r =>
      cases ht : w.tasks p with
      | none =>
          refine .inl ⟨p, r, rfl, ?_, ?_, ?_⟩
          · show (w.tasks p).map Task.state = none
            rw [ht]
            rfl
          · simp only [exec, ht]
          · simp only [exec, ht]
            exact w.at_update _ _ _
      | some t => exact .inr (.inr (.inr (.inr (hstay (by simp only [exec, ht])))))
  | step p c =>
      cases ht : w.tasks p with
      | none => exact .inr (.inr (.inr (.inr (hstay (by simp only [exec, ht])))))
      | some t =>
          obtain ⟨k, b⟩ := t
          cases b with
          | true => exact .inr (.inr (.inr (.inr (hstay (by simp only [exec, ht])))))
          | false =>
              refine .inr (.inl ⟨p, c, k, rfl, ht, hat ht, ?_, ?_⟩)
              · simp only [exec, ht]
              · simp only [exec, ht]
                exact w.at_update _ _ _
  | crash p =>
      cases ht : w.tasks p with
      | none => exact .inr (.inr (.inr (.inr (hstay (by simp only [exec, ht])))))
      | some t =>
          obtain ⟨k, b⟩ := t
          cases b with
          | true => exact .inr (.inr (.inr (.inr (hstay (by simp only [exec, ht])))))
          | false =>
              refine .inr (.inr (.inr (.inl ⟨p, k, rfl, hat ht, ?_, ?_⟩)))
              · simp only [exec, ht]
              · simp only [exec, ht]
                exact w.at_update _ _ _
  | act o => exact .inr (.inr (.inl ⟨o, rfl, rfl, rfl⟩))

/-- A step of one call leaves the others where they stand. -/
theorem step_at_of_ne (sys : System σ ρ κ χ ω) (w : World σ κ) {p q : Nat}
    (hq : q ≠ p) (c : χ) : (sys.exec w (.step p c)).at_ q = w.at_ q := by
  obtain ⟨p', r, he, -⟩ | ⟨p', c', k, he, -, -, -, ha⟩ | ⟨o, he, -⟩ | ⟨p', k, he, -⟩ |
    ⟨-, ha⟩ := sys.exec_cases w (.step p c)
  · cases he
  · cases he
    rw [ha, Function.update_of_ne hq]
  · cases he
  · cases he
  · rw [ha]

theorem spawn_at_of_ne (sys : System σ ρ κ χ ω) (w : World σ κ) {p q : Nat}
    (hq : q ≠ p) (r : ρ) : (sys.exec w (.spawn p r)).at_ q = w.at_ q := by
  obtain ⟨p', r', he, -, -, ha⟩ | ⟨p', c', k, he, -⟩ | ⟨o, he, -⟩ | ⟨p', k, he, -⟩ |
    ⟨-, ha⟩ := sys.exec_cases w (.spawn p r)
  · cases he
    rw [ha, Function.update_of_ne hq]
  · cases he
  · cases he
  · cases he
  · rw [ha]

theorem steps_at_of_ne (sys : System σ ρ κ χ ω) {p q : Nat} (hq : q ≠ p) (cs : List χ) :
    ∀ w : World σ κ, (sys.run w (cs.map (.step p))).at_ q = w.at_ q := by
  induction cs with
  | nil => exact fun _ => rfl
  | cons c rest ih => exact fun w => (ih _).trans (sys.step_at_of_ne w hq c)

/-- A call that is not in the schedule is not made. -/
theorem run_at_none (sys : System σ ρ κ χ ω) {p : Nat} (es : List (Event ρ χ ω)) :
    ∀ {w : World σ κ}, w.at_ p = none → (∀ r, .spawn p r ∉ es) → (sys.run w es).at_ p = none := by
  induction es with
  | nil => exact fun hw _ => hw
  | cons e rest ih =>
      intro w hw hes
      refine ih (w := sys.exec w e) ?_ fun r hr => hes r (List.mem_cons_of_mem e hr)
      obtain ⟨q, r, rfl, -, -, ha⟩ | ⟨q, c, k, -, -, hq, -, ha⟩ | ⟨o, -, -, ha⟩ |
        ⟨q, k, -, hq, -, ha⟩ | ⟨-, ha⟩ := sys.exec_cases w e
      · have hne : p ≠ q := by
          rintro rfl
          exact hes r List.mem_cons_self
        rw [ha, Function.update_of_ne hne]
        exact hw
      · have hne : p ≠ q := by
          rintro rfl
          rw [hw] at hq
          cases hq
        rw [ha, Function.update_of_ne hne]
        exact hw
      · rw [ha]
        exact hw
      · have hne : p ≠ q := by
          rintro rfl
          rw [hw] at hq
          cases hq
        rw [ha, Function.update_of_ne hne]
        exact hw
      · rw [ha]
        exact hw

/-- A call and the store after steps of this call only. -/
def solo (sys : System σ ρ κ χ ω) (p : Nat) (k : κ) (s : σ) (cs : List χ) : κ × σ :=
  cs.foldl (fun ks c => sys.next p c ks.1 ks.2) (k, s)

theorem solo_cons (sys : System σ ρ κ χ ω) {p : Nat} {k k' : κ} {s s' : σ} {c : χ}
    (h : sys.next p c k s = (k', s')) (cs : List χ) :
    sys.solo p k s (c :: cs) = sys.solo p k' s' cs := by
  show List.foldl _ (sys.next p c k s) cs = _
  rw [h]
  rfl

theorem run_solo (sys : System σ ρ κ χ ω) {p : Nat} (cs : List χ) :
    ∀ {w : World σ κ} {k : κ}, w.tasks p = some ⟨k, false⟩ →
      (sys.run w (cs.map (.step p))).store = (sys.solo p k w.store cs).2 ∧
        (sys.run w (cs.map (.step p))).at_ p = some (sys.solo p k w.store cs).1 := by
  induction cs with
  | nil =>
      intro w k hk
      refine ⟨rfl, ?_⟩
      show (w.tasks p).map Task.state = _
      rw [hk]
      rfl
  | cons c rest ih =>
      intro w k hk
      have hstep : sys.exec w (.step p c) = ⟨(sys.next p c k w.store).2,
          Function.update w.tasks p (some ⟨(sys.next p c k w.store).1, false⟩)⟩ := by
        simp only [exec, hk]
      have hrest := ih (w := sys.exec w (.step p c)) (k := (sys.next p c k w.store).1) (by
        rw [hstep]
        exact Function.update_self ..)
      rw [List.map_cons, run_cons, hrest.1, hrest.2, hstep]
      exact ⟨rfl, rfl⟩

/-- The rule of invariants, over the store and where the calls stand. -/
theorem run_invariant (sys : System σ ρ κ χ ω) {I : σ → (Nat → Option κ) → Prop}
    (hspawn : ∀ s calls p r, I s calls → calls p = none →
      I s (Function.update calls p (some (sys.start r))))
    (hstep : ∀ s calls p c k, I s calls → calls p = some k →
      I (sys.next p c k s).2 (Function.update calls p (some (sys.next p c k s).1)))
    (hact : ∀ s calls o, I s calls → I (sys.act o s) calls)
    (hstop : ∀ s calls p k, I s calls → calls p = some k →
      I (sys.stop p k s).2 (Function.update calls p (some (sys.stop p k s).1))) :
    ∀ (es : List (Event ρ χ ω)) {w : World σ κ}, I w.store w.at_ →
      I (sys.run w es).store (sys.run w es).at_ := by
  intro es
  induction es with
  | nil => exact fun hw => hw
  | cons e rest ih =>
      intro w hw
      refine ih (w := sys.exec w e) ?_
      obtain ⟨p, r, -, hp, hs, ha⟩ | ⟨p, c, k, -, -, hp, hs, ha⟩ | ⟨o, -, hs, ha⟩ |
        ⟨p, k, -, hp, hs, ha⟩ | ⟨hs, ha⟩ := sys.exec_cases w e
      · rw [hs, ha]
        exact hspawn _ _ p r hw hp
      · rw [hs, ha]
        exact hstep _ _ p c k hw hp
      · rw [hs, ha]
        exact hact _ _ o hw
      · rw [hs, ha]
        exact hstop _ _ p k hw hp
      · rw [hs, ha]
        exact hw

/-- A crash that leaves the call and the store as they are keeps every invariant. -/
theorem stop_keeps {I : σ → (Nat → Option κ) → Prop} {s : σ} {calls : Nat → Option κ} {p : Nat}
    {k : κ} (h : I s calls) (hk : calls p = some k) :
    I s (Function.update calls p (some k)) := by
  rw [← hk, Function.update_eq_self]
  exact h

/-- Every event of the schedule meets `ok` in the state it finds. -/
def Follows (sys : System σ ρ κ χ ω) (ok : World σ κ → Event ρ χ ω → Prop) :
    World σ κ → List (Event ρ χ ω) → Prop
  | _, [] => True
  | w, e :: es => ok w e ∧ sys.Follows ok (sys.exec w e) es

theorem follows_append (sys : System σ ρ κ χ ω) {ok : World σ κ → Event ρ χ ω → Prop}
    (fs : List (Event ρ χ ω)) :
    ∀ (es : List (Event ρ χ ω)) {w : World σ κ}, sys.Follows ok w (es ++ fs) →
      sys.Follows ok (sys.run w es) fs := by
  intro es
  induction es with
  | nil => exact fun h => h
  | cons e rest ih => exact fun h => ih h.2

theorem follows_initial (sys : System σ ρ κ χ ω) {ok : World σ κ → Event ρ χ ω → Prop}
    (fs : List (Event ρ χ ω)) :
    ∀ (es : List (Event ρ χ ω)) {w : World σ κ}, sys.Follows ok w (es ++ fs) →
      sys.Follows ok w es := by
  intro es
  induction es with
  | nil => exact fun _ => trivial
  | cons e rest ih => exact fun h => ⟨h.1, ih h.2⟩

/-- The rule of invariants for schedules that meet a condition. -/
theorem follows_invariant (sys : System σ ρ κ χ ω) {ok : World σ κ → Event ρ χ ω → Prop}
    {I : World σ κ → Prop} (hexec : ∀ w e, I w → ok w e → I (sys.exec w e)) :
    ∀ (es : List (Event ρ χ ω)) {w : World σ κ}, sys.Follows ok w es → I w → I (sys.run w es) := by
  intro es
  induction es with
  | nil => exact fun _ hw => hw
  | cons e rest ih => exact fun hok hw => ih hok.2 (hexec _ e hw hok.1)

/-- The rule of histories: when each event of a schedule adds to a history, so does
the whole run, and what the history shows of the events is what they told. -/
theorem follows_history (sys : System σ ρ κ χ ω) {τ υ : Type}
    {ok : World σ κ → Event ρ χ ω → Prop} {J : List τ → World σ κ → Prop} {shown : τ → Option υ}
    {told : Event ρ χ ω → Option υ}
    (hexec : ∀ past w e, J past w → ok w e →
      ∃ more, J (past ++ more) (sys.exec w e) ∧ more.filterMap shown = [e].filterMap told) :
    ∀ (es : List (Event ρ χ ω)) {w : World σ κ} {past : List τ}, sys.Follows ok w es →
      J past w →
        ∃ more, J (past ++ more) (sys.run w es) ∧ more.filterMap shown = es.filterMap told := by
  intro es
  induction es with
  | nil =>
      intro w past _ hw
      refine ⟨[], ?_, rfl⟩
      rw [List.append_nil]
      exact hw
  | cons e rest ih =>
      intro w past hok hw
      obtain ⟨first, hfirst, hshown⟩ := hexec past w e hw hok.1
      obtain ⟨later, hlater, hrest⟩ := ih hok.2 hfirst
      refine ⟨first ++ later, ?_, ?_⟩
      · rw [← List.append_assoc]
        exact hlater
      · rw [List.filterMap_append, hshown, hrest, ← List.filterMap_append]
        rfl

end System

end Lib
end ERP
