import Mathlib.Order.Basic
import Mathlib.Data.List.Basic

/-!
# Transaction bodies

A transaction body reads and writes a store and may fail.  Failing is rolling
back: `Except` forgets the store the body had reached, so the caller goes on
with the one it passed in.

`Post m s Q E` is the postcondition of running `m` from `s`: an outcome
satisfies `Q` together with the store it leaves, a failure satisfies `E`.  Both
arms are carried because the claims about a store are of both kinds, what a
successful body leaves behind and which failures cannot happen.
-/

namespace ERP
namespace Lib

/-- A transaction body over the store `σ`, failing with `ε`. -/
abbrev Tx (σ ε : Type) := StateT σ (Except ε)

namespace Tx

variable {σ ε α β : Type}

/-- Fail unless `c` holds. -/
def require (c : Prop) [Decidable c] (e : ε) : Tx σ ε Unit :=
  if c then pure () else throw e

/-- Take the value of a lookup, failing when there is none. -/
def expect (o : Option α) (e : ε) : Tx σ ε α :=
  match o with
  | some a => pure a
  | none => throw e

/-- Commit the body, or keep the store when it fails. -/
def commit (m : Tx σ ε α) (s : σ) : σ :=
  match m s with
  | .ok (_, s') => s'
  | .error _ => s

/-- The postcondition of `m` from `s`, one arm for each kind of outcome. -/
def Post (m : Tx σ ε α) (s : σ) (Q : α → σ → Prop) (E : ε → Prop) : Prop :=
  match m s with
  | .ok (a, s') => Q a s'
  | .error e => E e

theorem Post.mono {m : Tx σ ε α} {s : σ} {Q Q' : α → σ → Prop} {E E' : ε → Prop}
    (h : Post m s Q E) (hQ : ∀ a s', Q a s' → Q' a s') (hE : ∀ e, E e → E' e) :
    Post m s Q' E' := by
  unfold Post at h ⊢
  split at h
  · exact hQ _ _ h
  · exact hE _ h

theorem Post.of_ok {m : Tx σ ε α} {s s' : σ} {a : α} {Q : α → σ → Prop} {E : ε → Prop}
    (h : Post m s Q E) (hm : m s = .ok (a, s')) : Q a s' := by
  unfold Post at h
  rw [hm] at h
  exact h

theorem Post.of_error {m : Tx σ ε α} {s : σ} {e : ε} {Q : α → σ → Prop} {E : ε → Prop}
    (h : Post m s Q E) (hm : m s = .error e) : E e := by
  unfold Post at h
  rw [hm] at h
  exact h

/-- A body that cannot fail has an outcome. -/
theorem Post.exists_ok {m : Tx σ ε α} {s : σ} {Q : α → σ → Prop}
    (h : Post m s Q (fun _ => False)) : ∃ a s', m s = .ok (a, s') ∧ Q a s' := by
  cases hm : m s with
  | error e => exact absurd (h.of_error hm) not_false
  | ok p => exact ⟨p.1, p.2, rfl, h.of_ok hm⟩

theorem Post.eq_ok {m : Tx σ ε α} {s s' : σ} {a : α}
    (h : Post m s (fun b t => b = a ∧ t = s') (fun _ => False)) : m s = .ok (a, s') := by
  obtain ⟨b, t, hm, rfl, rfl⟩ := h.exists_ok
  exact hm

theorem Post.eq_error {m : Tx σ ε α} {s : σ} {e : ε}
    (h : Post m s (fun _ _ => False) (fun e' => e' = e)) : m s = .error e := by
  cases hm : m s with
  | error e' => rw [h.of_error hm]
  | ok p => exact absurd (h.of_ok hm) not_false

/-- Two postconditions of one body hold together. -/
theorem Post.and {m : Tx σ ε α} {s : σ} {Q Q' : α → σ → Prop} {E E' : ε → Prop}
    (h : Post m s Q E) (h' : Post m s Q' E') :
    Post m s (fun a s' => Q a s' ∧ Q' a s') (fun e => E e ∧ E' e) := by
  unfold Post at h h' ⊢
  split
  · rename_i hm
    rw [hm] at h h'
    exact ⟨h, h'⟩
  · rename_i hm
    rw [hm] at h h'
    exact ⟨h, h'⟩

theorem post_iff {m : Tx σ ε α} {s : σ} {Q : α → σ → Prop} {E : ε → Prop} :
    Post m s Q E ↔
      (∀ a s', m s = .ok (a, s') → Q a s') ∧ (∀ e, m s = .error e → E e) := by
  refine ⟨fun h => ⟨fun _ _ hm => h.of_ok hm, fun _ hm => h.of_error hm⟩, fun h => ?_⟩
  unfold Post
  split
  · exact h.1 _ _ ‹_›
  · exact h.2 _ ‹_›

theorem commit_of_ok {m : Tx σ ε α} {s s' : σ} {a : α} (h : m s = .ok (a, s')) :
    commit m s = s' := by
  unfold commit
  rw [h]

theorem commit_of_error {m : Tx σ ε α} {s : σ} {e : ε} (h : m s = .error e) : commit m s = s := by
  unfold commit
  rw [h]

/-- What a committed body establishes, it establishes of the store the caller
goes on with, provided the store it started from had it. -/
theorem commit_of_post {m : Tx σ ε α} {s : σ} {P : σ → Prop} {E : ε → Prop}
    (h : Post m s (fun _ => P) E) (hs : P s) : P (commit m s) := by
  unfold Post at h
  unfold commit
  split
  · rename_i hm
    rw [hm] at h
    exact h
  · exact hs

@[simp] theorem post_pure {a : α} {s : σ} {Q : α → σ → Prop} {E : ε → Prop} :
    Post (pure a) s Q E ↔ Q a s := Iff.rfl

@[simp] theorem post_throw {e : ε} {s : σ} {Q : α → σ → Prop} {E : ε → Prop} :
    Post (throw e) s Q E ↔ E e := Iff.rfl

@[simp] theorem post_get {s : σ} {Q : σ → σ → Prop} {E : ε → Prop} :
    Post get s Q E ↔ Q s s := Iff.rfl

@[simp] theorem post_set {s t : σ} {Q : Unit → σ → Prop} {E : ε → Prop} :
    Post (set t) s Q E ↔ Q () t := Iff.rfl

@[simp] theorem post_modify {f : σ → σ} {s : σ} {Q : Unit → σ → Prop} {E : ε → Prop} :
    Post (modify f) s Q E ↔ Q () (f s) := Iff.rfl

@[simp] theorem post_bind {m : Tx σ ε α} {f : α → Tx σ ε β} {s : σ}
    {Q : β → σ → Prop} {E : ε → Prop} :
    Post (m >>= f) s Q E ↔ Post m s (fun a s' => Post (f a) s' Q E) E := by
  unfold Post
  simp only [bind, StateT.bind, Except.bind]
  cases m s with
  | error e => rfl
  | ok p => rfl

/-- What a body returns is of no interest to the store. -/
theorem commit_map (f : α → β) (m : Tx σ ε α) (s : σ) : commit (f <$> m) s = commit m s := by
  unfold commit
  simp only [Functor.map, StateT.map, bind, Except.bind, pure, Except.pure]
  cases m s with
  | ok r => rfl
  | error e => rfl

@[simp] theorem post_map {m : Tx σ ε α} {f : α → β} {s : σ}
    {Q : β → σ → Prop} {E : ε → Prop} :
    Post (f <$> m) s Q E ↔ Post m s (fun a s' => Q (f a) s') E := by
  rw [← bind_pure_comp, post_bind]
  rfl

@[simp] theorem post_require {c : Prop} [Decidable c] {e : ε} {s : σ}
    {Q : Unit → σ → Prop} {E : ε → Prop} :
    Post (require c e) s Q E ↔ (c → Q () s) ∧ (¬ c → E e) := by
  unfold require
  by_cases h : c
  · simp [h]
  · simp [h]

@[simp] theorem post_expect {o : Option α} {e : ε} {s : σ}
    {Q : α → σ → Prop} {E : ε → Prop} :
    Post (expect o e) s Q E ↔ (∀ a, o = some a → Q a s) ∧ (o = none → E e) := by
  unfold expect
  cases o with
  | none => simp
  | some a => simp

@[simp] theorem post_liftM {r : Except ε α} {s : σ} {Q : α → σ → Prop} {E : ε → Prop} :
    Post (liftM r : Tx σ ε α) s Q E ↔ (∀ a, r = .ok a → Q a s) ∧ ∀ e, r = .error e → E e := by
  cases r with
  | ok a => exact ⟨fun h => ⟨fun b hb => by cases hb; exact h, nofun⟩, fun h => h.1 a rfl⟩
  | error e => exact ⟨fun h => ⟨nofun, fun e' he => by cases he; exact h⟩, fun h => h.2 e rfl⟩

@[simp] theorem post_ite {c : Prop} [Decidable c] {m n : Tx σ ε α} {s : σ}
    {Q : α → σ → Prop} {E : ε → Prop} :
    Post (if c then m else n) s Q E ↔ (c → Post m s Q E) ∧ (¬ c → Post n s Q E) := by
  by_cases h : c
  · simp [h]
  · simp [h]

/-- The loop rule.  `I` is indexed by the elements still to come, so that the
invariant can say what the rest of the loop owes. -/
theorem post_forM {f : α → Tx σ ε PUnit} {E : ε → Prop} (I : List α → σ → Prop) :
    ∀ (xs : List α) {s : σ},
      (∀ x rest s, (∃ done, xs = done ++ x :: rest) → I (x :: rest) s →
        Post (f x) s (fun _ s' => I rest s') E) →
      I xs s → Post (xs.forM f) s (fun _ s' => I [] s') E := by
  intro xs
  induction xs with
  | nil =>
      intro s _ hs
      exact hs
  | cons x rest ih =>
      intro s hstep hs
      rw [List.forM_eq_forM, List.forM_cons, post_bind]
      refine (hstep x rest s ⟨[], rfl⟩ hs).mono (fun _ s' hs' => ?_) (fun _ he => he)
      refine ih (fun y rest' t hy ht => ?_) hs'
      obtain ⟨done, hdone⟩ := hy
      exact hstep y rest' t ⟨x :: done, by rw [hdone]; rfl⟩ ht

/-- Going through a list, each element takes the store one step further. -/
inductive Chain (R : α → σ → σ → Prop) : List α → σ → σ → Prop
  | nil {s} : Chain R [] s s
  | cons {x rest s s₁ s₂} (h : R x s s₁) (hrest : Chain R rest s₁ s₂) : Chain R (x :: rest) s s₂

/-- The loop rule that also tells the steps the loop took. -/
theorem post_forM_chain {f : α → Tx σ ε PUnit} {E : ε → Prop} (R : α → σ → σ → Prop)
    (I : List α → σ → Prop) :
    ∀ (xs : List α) {s : σ},
      (∀ x rest s, (∃ done, xs = done ++ x :: rest) → I (x :: rest) s →
        Post (f x) s (fun _ s' => R x s s' ∧ I rest s') E) →
      I xs s → Post (xs.forM f) s (fun _ s' => Chain R xs s s' ∧ I [] s') E := by
  intro xs
  induction xs with
  | nil =>
      intro s _ hs
      exact ⟨.nil, hs⟩
  | cons x rest ih =>
      intro s hstep hs
      rw [List.forM_eq_forM, List.forM_cons, post_bind]
      refine (hstep x rest s ⟨[], rfl⟩ hs).mono (fun _ s₁ hs₁ => ?_) (fun _ he => he)
      refine (ih (fun y rest' t hy ht => ?_) hs₁.2).mono
        (fun _ s₂ hs₂ => ⟨.cons hs₁.1 hs₂.1, hs₂.2⟩) (fun _ he => he)
      obtain ⟨done, hdone⟩ := hy
      exact hstep y rest' t ⟨x :: done, by rw [hdone]; rfl⟩ ht

end Tx

end Lib
end ERP
