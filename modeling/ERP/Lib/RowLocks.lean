import Mathlib.Logic.Function.Basic

/-!
# Rows under READ COMMITTED

A cell is one row, or the place of a row that is not there yet: its committed
value, how often a commit has changed it, and the lock of the transaction that
holds it.  A transaction reads the committed value, or its own write.  It may lock
a row without writing it.  The lock is kept to the end of the transaction, which
makes the write the committed value or forgets it.
-/

namespace ERP
namespace Lib

/-- The transaction that holds a row, and what it has written to it. -/
structure RowLock (V : Type) where
  holder : Nat
  written : Option (Option V)
  deriving DecidableEq, Repr

structure Cell (V : Type) where
  committed : Option V
  version : Nat
  lock : Option (RowLock V)
  deriving DecidableEq, Repr

namespace Cell

variable {V : Type}

/-- A row that was committed and is not held. -/
def stored (value : Option V) : Cell V := ⟨value, 0, none⟩

/-- What transaction `p` sees. -/
def visible (c : Cell V) (p : Nat) : Option V :=
  match c.lock with
  | some ⟨q, some v⟩ => if q = p then v else c.committed
  | _ => c.committed

/-- Transaction `p` need not wait for the row. -/
def available (c : Cell V) (p : Nat) : Bool :=
  match c.lock with
  | some l => l.holder = p
  | none => true

/-- Lock the row for `p`; a write made before is kept. -/
def hold (c : Cell V) (p : Nat) : Cell V :=
  match c.lock with
  | some _ => c
  | none => { c with lock := some ⟨p, none⟩ }

/-- Lock the row for `p` and write it. -/
def write (c : Cell V) (p : Nat) (value : Option V) : Cell V :=
  { c with lock := some ⟨p, some value⟩ }

/-- The end of transaction `p`, committed. -/
def commit (c : Cell V) (p : Nat) : Cell V :=
  match c.lock with
  | some ⟨q, some v⟩ => if q = p then ⟨v, c.version + 1, none⟩ else c
  | some ⟨q, none⟩ => if q = p then { c with lock := none } else c
  | none => c

/-- The end of transaction `p`, rolled back. -/
def release (c : Cell V) (p : Nat) : Cell V :=
  match c.lock with
  | some l => if l.holder = p then { c with lock := none } else c
  | none => c

/-- The row is held by `p`. -/
def heldBy (c : Cell V) (p : Nat) : Prop := ∃ l, c.lock = some l ∧ l.holder = p

theorem not_heldBy_of_available {c : Cell V} {p q : Nat} (h : c.available p = true)
    (hq : c.heldBy q) : q = p := by
  obtain ⟨l, hl, rfl⟩ := hq
  unfold available at h
  rw [hl] at h
  simpa using h

theorem commit_of_not_heldBy {c : Cell V} {p : Nat} (h : ¬ c.heldBy p) : c.commit p = c := by
  unfold commit
  cases hl : c.lock with
  | none => rfl
  | some l =>
      obtain ⟨q, w⟩ := l
      have hq : q ≠ p := fun hq => h ⟨_, hl, hq⟩
      cases w with
      | none => exact if_neg hq
      | some v => exact if_neg hq

theorem release_of_not_heldBy {c : Cell V} {p : Nat} (h : ¬ c.heldBy p) : c.release p = c := by
  unfold release
  cases hl : c.lock with
  | none => rfl
  | some l => exact if_neg fun hq => h ⟨l, hl, hq⟩

@[simp] theorem release_committed (c : Cell V) (p : Nat) :
    (c.release p).committed = c.committed := by
  unfold release
  cases c.lock with
  | none => rfl
  | some l =>
      dsimp only
      split
      · rfl
      · rfl

@[simp] theorem hold_committed (c : Cell V) (p : Nat) : (c.hold p).committed = c.committed := by
  unfold hold
  cases hl : c.lock with
  | none => rfl
  | some l => rfl

@[simp] theorem write_committed (c : Cell V) (p : Nat) (v : Option V) :
    (c.write p v).committed = c.committed := rfl

theorem visible_of_not_heldBy {c : Cell V} {p : Nat} (h : ¬ c.heldBy p) :
    c.visible p = c.committed := by
  unfold visible
  cases hl : c.lock with
  | none => rfl
  | some l =>
      obtain ⟨q, w⟩ := l
      have hq : q ≠ p := fun hq => h ⟨_, hl, hq⟩
      cases w with
      | none => rfl
      | some v => exact if_neg hq

theorem visible_of_hold {c : Cell V} {p : Nat} (h : c.lock = some ⟨p, none⟩) :
    c.visible p = c.committed := by
  unfold visible
  rw [h]

theorem visible_of_write {c : Cell V} {p : Nat} {v : Option V} (h : c.lock = some ⟨p, some v⟩) :
    c.visible p = v := by
  unfold visible
  rw [h]
  exact if_pos rfl

/-- A row that `p` may take and does not hold is held by nobody. -/
theorem lock_eq_none {c : Cell V} {p : Nat} (h : c.available p = true) (hp : ¬ c.heldBy p) :
    c.lock = none := by
  cases hl : c.lock with
  | none => rfl
  | some l =>
      unfold available at h
      rw [hl] at h
      exact absurd ⟨l, hl, by simpa using h⟩ hp

theorem hold_lock {c : Cell V} {p : Nat} (h : c.lock = none) :
    (c.hold p).lock = some ⟨p, none⟩ := by
  unfold hold
  rw [h]

theorem heldBy_unique {c : Cell V} {p q : Nat} (hp : c.heldBy p) (hq : c.heldBy q) : p = q := by
  obtain ⟨l, hl, rfl⟩ := hp
  obtain ⟨m, hm, rfl⟩ := hq
  rw [hl] at hm
  rw [Option.some.inj hm]

theorem not_heldBy_commit (c : Cell V) (p : Nat) : ¬ (c.commit p).heldBy p := by
  rintro ⟨l, hl, rfl⟩
  unfold commit at hl
  cases hc : c.lock with
  | none =>
      rw [hc] at hl
      simp only [hc] at hl
      cases hl
  | some m =>
      obtain ⟨q, w⟩ := m
      rw [hc] at hl
      cases w with
      | none =>
          by_cases hq : q = l.holder
          · simp only [if_pos hq] at hl
            cases hl
          · simp only [if_neg hq, hc] at hl
            exact hq (congrArg RowLock.holder (Option.some.inj hl))
      | some v =>
          by_cases hq : q = l.holder
          · simp only [if_pos hq] at hl
            cases hl
          · simp only [if_neg hq, hc] at hl
            exact hq (congrArg RowLock.holder (Option.some.inj hl))

theorem not_heldBy_release (c : Cell V) (p : Nat) : ¬ (c.release p).heldBy p := by
  rintro ⟨l, hl, rfl⟩
  unfold release at hl
  cases hc : c.lock with
  | none =>
      simp only [hc] at hl
      cases hl
  | some m =>
      rw [hc] at hl
      by_cases hq : m.holder = l.holder
      · simp only [if_pos hq] at hl
        cases hl
      · simp only [if_neg hq, hc] at hl
        exact hq (congrArg RowLock.holder (Option.some.inj hl))

theorem heldBy_commit {c : Cell V} {p q : Nat} (h : (c.commit p).heldBy q) : c.heldBy q := by
  by_cases hp : c.heldBy p
  · by_cases hq : q = p
    · exact absurd (hq ▸ h) (not_heldBy_commit c p)
    · obtain ⟨l, hl, rfl⟩ := hp
      unfold commit at h
      obtain ⟨r, w⟩ := l
      rw [hl] at h
      cases w with
      | none =>
          simp only [if_true] at h
          obtain ⟨m, hm, -⟩ := h
          cases hm
      | some v =>
          simp only [if_true] at h
          obtain ⟨m, hm, -⟩ := h
          cases hm
  · rw [commit_of_not_heldBy hp] at h
    exact h

theorem heldBy_release {c : Cell V} {p q : Nat} (h : (c.release p).heldBy q) : c.heldBy q := by
  by_cases hp : c.heldBy p
  · obtain ⟨l, hl, rfl⟩ := hp
    unfold release at h
    rw [hl] at h
    simp only [if_true] at h
    obtain ⟨m, hm, -⟩ := h
    cases hm
  · rw [release_of_not_heldBy hp] at h
    exact h

theorem commit_committed_of_lock {c : Cell V} {p : Nat} {v : Option V}
    (h : c.lock = some ⟨p, some v⟩) : (c.commit p).committed = v := by
  unfold commit
  rw [h]
  simp

theorem commit_committed_of_hold {c : Cell V} {p : Nat} (h : c.lock = some ⟨p, none⟩) :
    (c.commit p).committed = c.committed := by
  unfold commit
  rw [h]
  simp

end Cell

end Lib
end ERP
