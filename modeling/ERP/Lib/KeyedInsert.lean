import Mathlib.Logic.Function.Basic

/-!
# Requests under an idempotency key

A request carries a key.  It looks for the row of the key and is answered with it; where
there is none it inserts one in a transaction; and where the unique index of the key stops
the transaction, it looks again.  A row answers a request only if both have one hash.

Nothing holds these steps together: other requests and other transactions come between
them.  All requests that are accepted under one key are nevertheless answered with one row,
at most one of them has inserted it, and none of them ends with the violation of the index.
-/

namespace ERP
namespace Lib
namespace KeyedInsert

variable {σ κ ρ η ε O : Type}

/-- A store whose rows are searched by a unique key. -/
structure Index (σ κ ρ η ε : Type) where
  find : σ → κ → Option ρ
  hash : ρ → η
  /-- The unique index stopped an insert. -/
  duplicate : ε
  /-- The key was used for another request. -/
  reused : ε

structure Request (σ κ ρ η ε : Type) where
  key : κ
  hash : η
  insert : σ → Except ε (ρ × σ)

/-- How far a request has come. -/
inductive Phase (σ κ ρ η ε : Type) where
  | called
  | missed (request : Request σ κ ρ η ε)
  | collided (request : Request σ κ ρ η ε)
  | inserted (request : Request σ κ ρ η ε) (row : ρ)
  | replayed (request : Request σ κ ρ η ε) (row : ρ)
  | refused (e : ε)

/-- The row that answers an accepted request. -/
def Phase.answer : Phase σ κ ρ η ε → Option ρ
  | .inserted _ row | .replayed _ row => some row
  | _ => none

/-- The request is answered or refused. -/
def Phase.ended : Phase σ κ ρ η ε → Bool
  | .called | .missed _ | .collided _ => false
  | .inserted _ _ | .replayed _ _ | .refused _ => true

section Steps

variable [DecidableEq η] [DecidableEq ε] (T : Index σ κ ρ η ε)

/-- What a row that is there is to a request under its key. -/
def replay (request : Request σ κ ρ η ε) (row : ρ) : Phase σ κ ρ η ε :=
  if T.hash row ≠ request.hash then .refused T.reused else .replayed request row

/-- The next step of a request.  `call` is the request its checks leave, or how they fail. -/
def advance (call : Except ε (Request σ κ ρ η ε)) (s : σ) :
    Phase σ κ ρ η ε → Phase σ κ ρ η ε × σ
  | .called =>
    match call with
    | .error e => (.refused e, s)
    | .ok request =>
      match T.find s request.key with
      | some row => (replay T request row, s)
      | none => (.missed request, s)
  | .missed request =>
    match request.insert s with
    | .ok (row, s') => (.inserted request row, s')
    | .error e => (if e = T.duplicate then .collided request else .refused e, s)
  | .collided request =>
    match T.find s request.key with
    | some row => (replay T request row, s)
    | none => (.refused T.duplicate, s)
  | phase => (phase, s)

/-- The store and how far each of the requests has come. -/
structure State (σ κ ρ η ε : Type) where
  store : σ
  phases : Nat → Phase σ κ ρ η ε

/-- A request makes its next step, or something else is done to the store. -/
inductive Event (O : Type) where
  | call (p : Nat)
  | other (o : O)

/-- The event is a step of request `p`. -/
def Event.isCall (p : Nat) : Event O → Bool
  | .call q => q = p
  | .other _ => false

variable (calls : Nat → Except ε (Request σ κ ρ η ε)) (act : O → σ → σ)

def step (st : State σ κ ρ η ε) : Event O → State σ κ ρ η ε
  | .call p =>
    { store := (advance T (calls p) st.store (st.phases p)).2
      phases := Function.update st.phases p (advance T (calls p) st.store (st.phases p)).1 }
  | .other o => { st with store := act o st.store }

def run (events : List (Event O)) (st : State σ κ ρ η ε) : State σ κ ρ η ε :=
  events.foldl (step T calls act) st

/-- No request has made a step. -/
def start (s : σ) : State σ κ ρ η ε := ⟨s, fun _ => .called⟩

end Steps

section Agreement

/-- What is found under a key is found there still, in what it has become. -/
def Keeps (T : Index σ κ ρ η ε) (same : ρ → ρ → Prop) (s s' : σ) : Prop :=
  ∀ k r, T.find s k = some r → ∃ r', T.find s' k = some r' ∧ same r r'

/-- What the requests rely on: nothing takes a row from its key or changes its hash, and an
insert is stopped by the index exactly where there is a row. -/
structure Lawful (T : Index σ κ ρ η ε) (calls : Nat → Except ε (Request σ κ ρ η ε))
    (act : O → σ → σ) (I : σ → Prop) (same : ρ → ρ → Prop) : Prop where
  refl : ∀ r, same r r
  trans : ∀ r s t, same r s → same s t → same r t
  hash : ∀ r r', same r r' → T.hash r' = T.hash r
  reused : T.reused ≠ T.duplicate
  checked : ∀ p e, calls p = .error e → e ≠ T.duplicate
  act : ∀ o s, I s → I (act o s) ∧ Keeps T same s (act o s)
  inserted : ∀ p request s row s', calls p = .ok request → I s →
    request.insert s = .ok (row, s') → I s' ∧ Keeps T same s s' ∧
      T.find s request.key = none ∧ T.find s' request.key = some row ∧
      T.hash row = request.hash
  stopped : ∀ p request s, calls p = .ok request → I s →
    request.insert s = .error T.duplicate → T.find s request.key ≠ none

variable {T : Index σ κ ρ η ε} {same : ρ → ρ → Prop} {s s' : σ}

/-- The row that answered a request is under its key, in what it has become. -/
structure Holds (T : Index σ κ ρ η ε) (same : ρ → ρ → Prop) (s : σ)
    (request : Request σ κ ρ η ε) (row : ρ) : Prop where
  hash : T.hash row = request.hash
  found : ∃ r, T.find s request.key = some r ∧ same row r

/-- What is known of a request by how far it has come. -/
def Known (T : Index σ κ ρ η ε) (same : ρ → ρ → Prop) (s : σ)
    (call : Except ε (Request σ κ ρ η ε)) : Phase σ κ ρ η ε → Prop
  | .called => True
  | .missed request => call = .ok request
  | .collided request => call = .ok request ∧ T.find s request.key ≠ none
  | .inserted request row | .replayed request row => call = .ok request ∧ Holds T same s request row
  | .refused e => e ≠ T.duplicate

theorem Keeps.found (h : Keeps T same s s') {k : κ} (hk : T.find s k ≠ none) :
    T.find s' k ≠ none := by
  obtain ⟨r, hr⟩ := Option.ne_none_iff_exists'.mp hk
  obtain ⟨r', hr', -⟩ := h k r hr
  rw [hr']
  exact Option.some_ne_none r'

theorem Holds.keeps {request : Request σ κ ρ η ε} {row : ρ}
    (htrans : ∀ r s t, same r s → same s t → same r t) (h : Holds T same s request row)
    (hkeeps : Keeps T same s s') : Holds T same s' request row := by
  obtain ⟨r, hr, hsame⟩ := h.found
  obtain ⟨r', hr', hsame'⟩ := hkeeps _ r hr
  exact ⟨h.hash, r', hr', htrans _ _ _ hsame hsame'⟩

theorem Known.keeps {call : Except ε (Request σ κ ρ η ε)} {phase : Phase σ κ ρ η ε}
    (htrans : ∀ r s t, same r s → same s t → same r t) (h : Known T same s call phase)
    (hkeeps : Keeps T same s s') : Known T same s' call phase := by
  cases phase with
  | called => trivial
  | missed request => exact h
  | collided request => exact ⟨h.1, hkeeps.found h.2⟩
  | inserted request row => exact ⟨h.1, h.2.keeps htrans hkeeps⟩
  | replayed request row => exact ⟨h.1, h.2.keeps htrans hkeeps⟩
  | refused e => exact h

variable {calls : Nat → Except ε (Request σ κ ρ η ε)} {act : O → σ → σ} {I : σ → Prop}
  {p q : Nat}

theorem Lawful.keeps_refl (hT : Lawful T calls act I same) (s : σ) : Keeps T same s s :=
  fun _ r hr => ⟨r, hr, hT.refl r⟩

/-- What holds of the store and the requests in every state. -/
structure Agreed (T : Index σ κ ρ η ε) (same : ρ → ρ → Prop) (I : σ → Prop)
    (calls : Nat → Except ε (Request σ κ ρ η ε)) (st : State σ κ ρ η ε) : Prop where
  store : I st.store
  known : ∀ p, Known T same st.store (calls p) (st.phases p)
  once : ∀ p q a b r r', st.phases p = .inserted a r → st.phases q = .inserted b r' →
    a.key = b.key → p = q

theorem Agreed.start (hI : I s) : Agreed T same I calls (start s) :=
  ⟨hI, fun _ => trivial, fun _ _ _ _ _ _ h => by cases h⟩

/-- An accepted request has the row of its key for an answer. -/
theorem Agreed.holds {st : State σ κ ρ η ε} (h : Agreed T same I calls st) {row : ρ}
    (hanswer : (st.phases p).answer = some row) :
    ∃ request, calls p = .ok request ∧ Holds T same st.store request row := by
  have hknown := h.known p
  cases hphase : st.phases p with
  | inserted request r =>
      rw [hphase] at hknown hanswer
      cases hanswer
      exact ⟨request, hknown⟩
  | replayed request r =>
      rw [hphase] at hknown hanswer
      cases hanswer
      exact ⟨request, hknown⟩
  | _ =>
      rw [hphase] at hanswer
      cases hanswer

/-- Requests that are accepted under one key are one request by their hash, and are answered
with one row. -/
theorem Agreed.one_answer (hT : Lawful T calls act I same) {st : State σ κ ρ η ε}
    (h : Agreed T same I calls st) {a b : Request σ κ ρ η ε} {r r' : ρ}
    (ha : calls p = .ok a) (hb : calls q = .ok b) (hkey : a.key = b.key)
    (hr : (st.phases p).answer = some r) (hr' : (st.phases q).answer = some r') :
    a.hash = b.hash ∧ ∃ row, T.find st.store a.key = some row ∧ same r row ∧ same r' row := by
  obtain ⟨a', ha', hholds⟩ := h.holds hr
  obtain ⟨b', hb', hholds'⟩ := h.holds hr'
  cases ha.symm.trans ha'
  cases hb.symm.trans hb'
  obtain ⟨row, hrow, hsame⟩ := hholds.found
  obtain ⟨row', hrow', hsame'⟩ := hholds'.found
  rw [← hkey, hrow] at hrow'
  cases hrow'
  refine ⟨?_, row, hrow, hsame, hsame'⟩
  rw [← hholds.hash, ← hholds'.hash, ← hT.hash _ _ hsame, ← hT.hash _ _ hsame']

variable [DecidableEq η]

theorem known_replay (hT : Lawful T calls act I same) {request : Request σ κ ρ η ε} {row : ρ}
    (hcall : calls p = .ok request) (hfound : T.find s request.key = some row) :
    Known T same s (calls p) (replay T request row) := by
  unfold replay
  by_cases hhash : T.hash row = request.hash
  · rw [if_neg (not_not.mpr hhash)]
    exact ⟨hcall, hhash, row, hfound, hT.refl row⟩
  · rw [if_pos hhash]
    exact hT.reused

variable [DecidableEq ε]

/-- A step of a request leaves the rows under their keys, and what is known of the request
holds of how far it has come.  Only the insert itself ends as inserted, and it found nothing
under its key. -/
theorem advance_known (hT : Lawful T calls act I same) (hI : I s) {phase : Phase σ κ ρ η ε}
    (h : Known T same s (calls p) phase) :
    I (advance T (calls p) s phase).2 ∧ Keeps T same s (advance T (calls p) s phase).2 ∧
    Known T same (advance T (calls p) s phase).2 (calls p) (advance T (calls p) s phase).1 ∧
    ∀ request row, (advance T (calls p) s phase).1 = .inserted request row →
      phase = .inserted request row ∨ T.find s request.key = none := by
  have hno {request request' : Request σ κ ρ η ε} {row row' : ρ} :
      replay T request row ≠ .inserted request' row' := by
    unfold replay
    split <;> simp
  cases phase with
  | called =>
      cases hcall : calls p with
      | error e =>
          have hstep : advance T (.error e) s .called = (.refused e, s) := rfl
          rw [hstep]
          exact ⟨hI, hT.keeps_refl s, hT.checked p e hcall, fun _ _ heq => by cases heq⟩
      | ok request =>
          rw [← hcall]
          cases hfound : T.find s request.key with
          | some row =>
              have hstep : advance T (calls p) s .called = (replay T request row, s) := by
                simp only [advance, hcall, hfound]
              rw [hstep]
              exact ⟨hI, hT.keeps_refl s, known_replay hT hcall hfound, fun _ _ heq =>
                absurd heq hno⟩
          | none =>
              have hstep : advance T (calls p) s .called = (.missed request, s) := by
                simp only [advance, hcall, hfound]
              rw [hstep]
              exact ⟨hI, hT.keeps_refl s, hcall, fun _ _ heq => by cases heq⟩
  | missed request =>
      cases hinsert : request.insert s with
      | ok r =>
          obtain ⟨row, s'⟩ := r
          have hstep : advance T (calls p) s (.missed request) = (.inserted request row, s') := by
            simp only [advance, hinsert]
          obtain ⟨hI', hkeeps, hnone, hfound, hhash⟩ := hT.inserted p request s row s' h hI hinsert
          rw [hstep]
          refine ⟨hI', hkeeps, ⟨h, hhash, row, hfound, hT.refl row⟩, fun request' row' heq => ?_⟩
          cases heq
          exact .inr hnone
      | error e =>
          by_cases he : e = T.duplicate
          · have hstep : advance T (calls p) s (.missed request) = (.collided request, s) := by
              simp only [advance, hinsert, he, if_true]
            rw [hstep]
            exact ⟨hI, hT.keeps_refl s, ⟨h, hT.stopped p request s h hI (he ▸ hinsert)⟩,
              fun _ _ heq => by cases heq⟩
          · have hstep : advance T (calls p) s (.missed request) = (.refused e, s) := by
              simp only [advance, hinsert, he, if_false]
            rw [hstep]
            exact ⟨hI, hT.keeps_refl s, he, fun _ _ heq => by cases heq⟩
  | collided request =>
      cases hfound : T.find s request.key with
      | some row =>
          have hstep : advance T (calls p) s (.collided request) = (replay T request row, s) := by
            simp only [advance, hfound]
          rw [hstep]
          exact ⟨hI, hT.keeps_refl s, known_replay hT h.1 hfound, fun _ _ heq => absurd heq hno⟩
      | none => exact absurd hfound h.2
  | inserted request row => exact ⟨hI, hT.keeps_refl s, h, fun _ _ heq => .inl heq⟩
  | replayed request row => exact ⟨hI, hT.keeps_refl s, h, fun _ _ heq => .inl heq⟩
  | refused e => exact ⟨hI, hT.keeps_refl s, h, fun _ _ heq => .inl heq⟩

theorem Agreed.step (hT : Lawful T calls act I same) {st : State σ κ ρ η ε}
    (h : Agreed T same I calls st) (e : Event O) :
    Agreed T same I calls (step T calls act st e) := by
  cases e with
  | other o =>
      obtain ⟨hI, hkeeps⟩ := hT.act o st.store h.store
      exact ⟨hI, fun p => (h.known p).keeps hT.trans hkeeps, h.once⟩
  | call p =>
      obtain ⟨hI, hkeeps, hknown, hfresh⟩ := advance_known hT h.store (h.known p)
      -- a row under the key of what `p` has just inserted would have been found by `p`
      have hother {q : Nat} {a b : Request σ κ ρ η ε} {r r' : ρ} (hq : q ≠ p)
          (ha : (advance T (calls p) st.store (st.phases p)).1 = .inserted a r)
          (hb : st.phases q = .inserted b r') : a.key ≠ b.key := by
        intro hkey
        rcases hfresh a r ha with hbefore | hnone
        · exact hq (h.once p q a b r r' hbefore hb hkey).symm
        · have hknownq := h.known q
          rw [hb] at hknownq
          obtain ⟨row, hrow, -⟩ := hknownq.2.found
          rw [hkey, hrow] at hnone
          cases hnone
      refine ⟨hI, fun q => ?_, fun q q' a b r r' hq hq' hkey => ?_⟩
      · show Known T same _ (calls q) (Function.update st.phases p _ q)
        by_cases hq : q = p
        · subst hq
          rw [Function.update_self]
          exact hknown
        · rw [Function.update_of_ne hq]
          exact (h.known q).keeps hT.trans hkeeps
      · change Function.update st.phases p _ q = _ at hq
        change Function.update st.phases p _ q' = _ at hq'
        by_cases hp : q = p <;> by_cases hp' : q' = p
        · exact hp.trans hp'.symm
        · rw [hp, Function.update_self] at hq
          rw [Function.update_of_ne hp'] at hq'
          exact absurd hkey (hother hp' hq hq')
        · rw [Function.update_of_ne hp] at hq
          rw [hp', Function.update_self] at hq'
          exact absurd hkey.symm (hother hp hq' hq)
        · rw [Function.update_of_ne hp] at hq
          rw [Function.update_of_ne hp'] at hq'
          exact h.once q q' a b r r' hq hq' hkey

theorem Agreed.run (hT : Lawful T calls act I same) {st : State σ κ ρ η ε}
    (h : Agreed T same I calls st) (events : List (Event O)) :
    Agreed T same I calls (run T calls act events st) := by
  induction events generalizing st with
  | nil => exact h
  | cons e rest ih => exact ih (h.step hT e)

end Agreement

section Progress

/-- How many steps a request may still make. -/
def Phase.steps : Phase σ κ ρ η ε → Nat
  | .called => 3
  | .missed _ => 2
  | .collided _ => 1
  | _ => 0

theorem ended_of_steps {phase : Phase σ κ ρ η ε} (h : phase.steps = 0) : phase.ended = true := by
  cases phase <;> first | rfl | cases h

variable [DecidableEq η] {T : Index σ κ ρ η ε} {calls : Nat → Except ε (Request σ κ ρ η ε)}
  {act : O → σ → σ} {p : Nat}

theorem replay_steps (request : Request σ κ ρ η ε) (row : ρ) :
    (replay T request row).steps = 0 := by
  unfold replay
  split <;> rfl

variable [DecidableEq ε]

theorem advance_steps (call : Except ε (Request σ κ ρ η ε)) (s : σ) (phase : Phase σ κ ρ η ε) :
    (advance T call s phase).1.steps ≤ phase.steps - 1 := by
  cases phase with
  | called =>
      cases call with
      | error e => exact Nat.zero_le _
      | ok request =>
          cases hfound : T.find s request.key with
          | some row =>
              simp only [advance, hfound, replay_steps]
              exact Nat.zero_le _
          | none =>
              simp only [advance, hfound]
              exact Nat.le_refl _
  | missed request =>
      cases hinsert : request.insert s with
      | ok r =>
          simp only [advance, hinsert]
          exact Nat.zero_le _
      | error e =>
          simp only [advance, hinsert]
          split
          · exact Nat.le_refl _
          · exact Nat.zero_le _
  | collided request =>
      cases hfound : T.find s request.key with
      | some row =>
          simp only [advance, hfound, replay_steps]
          exact Nat.zero_le _
      | none =>
          simp only [advance, hfound]
          exact Nat.zero_le _
  | _ => exact Nat.le_refl _

theorem run_steps (events : List (Event O)) (st : State σ κ ρ η ε) :
    ((run T calls act events st).phases p).steps ≤
      (st.phases p).steps - events.countP (Event.isCall p) := by
  induction events generalizing st with
  | nil => exact Nat.le_refl _
  | cons e rest ih =>
      refine Nat.le_trans (ih (step T calls act st e)) ?_
      cases e with
      | other o =>
          have hcount : (Event.other o :: rest).countP (Event.isCall p) =
              rest.countP (Event.isCall p) := List.countP_cons_of_neg (by simp [Event.isCall])
          exact Nat.le_of_eq (by rw [hcount]; rfl)
      | call q =>
          by_cases hq : q = p
          · subst hq
            have hstep : ((step T calls act st (.call q)).phases q).steps ≤
                (st.phases q).steps - 1 := by
              show (Function.update st.phases q _ q).steps ≤ _
              rw [Function.update_self]
              exact advance_steps _ _ _
            rw [List.countP_cons_of_pos (by simp [Event.isCall])]
            omega
          · have hstep : (step T calls act st (.call q)).phases p = st.phases p :=
              Function.update_of_ne (Ne.symm hq) _ _
            have hcount : (Event.call q :: rest).countP (Event.isCall (O := O) p) =
                rest.countP (Event.isCall p) :=
              List.countP_cons_of_neg (by simpa [Event.isCall] using hq)
            exact Nat.le_of_eq (by rw [hstep, hcount])

/-- A request that has made three steps is answered or refused. -/
theorem ended_of_three {events : List (Event O)} {s : σ}
    (h : 3 ≤ events.countP (Event.isCall p)) :
    ((run T calls act events (start s)).phases p).ended = true := by
  refine ended_of_steps (Nat.le_zero.mp (Nat.le_trans (run_steps events (start s)) ?_))
  exact Nat.le_of_eq (Nat.sub_eq_zero_of_le h)

end Progress

end KeyedInsert
end Lib
end ERP
