import Mathlib.Data.List.Dedup
import ERP.Lib.RowLocks

/-!
# Tables under READ COMMITTED

A table is a cell for every key, with the keys that were used so far.  A transaction
reads the rows as it sees them: the committed ones, with its own writes over them.
-/

namespace ERP
namespace Lib

namespace Cell

variable {V : Type} {c : Cell V} {p : Nat}

theorem visible_of_lock_none (h : c.lock = none) : c.visible p = c.committed := by
  unfold visible
  rw [h]

/-- A commit makes what the transaction sees the committed value. -/
theorem commit_committed (c : Cell V) (p : Nat) : (c.commit p).committed = c.visible p := by
  by_cases hp : c.heldBy p
  · obtain ⟨l, hl, rfl⟩ := hp
    obtain ⟨q, w⟩ := l
    cases w with
    | none => rw [commit_committed_of_hold hl, visible_of_hold hl]
    | some v => rw [commit_committed_of_lock hl, visible_of_write hl]
  · rw [commit_of_not_heldBy hp, visible_of_not_heldBy hp]

/-- A lock that outlives the end of a transaction was there before, over the same row. -/
theorem lock_of_commit {l : RowLock V} (h : (c.commit p).lock = some l) :
    c.lock = some l ∧ (c.commit p).committed = c.committed := by
  have hheld : c.heldBy l.holder := heldBy_commit ⟨l, h, rfl⟩
  have hne : l.holder ≠ p := by
    intro hp
    exact not_heldBy_commit c p ⟨l, h, hp⟩
  have hp : ¬ c.heldBy p := fun hp => hne (heldBy_unique hheld hp)
  rw [commit_of_not_heldBy hp] at h ⊢
  exact ⟨h, rfl⟩

theorem lock_of_release {l : RowLock V} (h : (c.release p).lock = some l) :
    c.lock = some l := by
  have hheld : c.heldBy l.holder := heldBy_release ⟨l, h, rfl⟩
  have hne : l.holder ≠ p := by
    intro hp
    exact not_heldBy_release c p ⟨l, h, hp⟩
  have hp : ¬ c.heldBy p := fun hp => hne (heldBy_unique hheld hp)
  rw [release_of_not_heldBy hp] at h
  exact h

end Cell

/-- The cells of a table.  A key that was never used has no row. -/
structure LockedTable (K V : Type) where
  keys : List K
  cell : K → Cell V
  nodup : keys.Nodup
  absent : ∀ k, k ∉ keys → cell k = .stored none

namespace LockedTable

variable {K V : Type} {t : LockedTable K V} {k j : K} {c : Cell V} {p : Nat}

/-- The rows as transaction `p` sees them. -/
def read (t : LockedTable K V) (p : Nat) : List V :=
  t.keys.filterMap fun k => (t.cell k).visible p

def commit (t : LockedTable K V) (p : Nat) : LockedTable K V where
  keys := t.keys
  cell := fun k => (t.cell k).commit p
  nodup := t.nodup
  absent := fun k hk => by
    rw [t.absent k hk]
    rfl

def rollback (t : LockedTable K V) (p : Nat) : LockedTable K V where
  keys := t.keys
  cell := fun k => (t.cell k).release p
  nodup := t.nodup
  absent := fun k hk => by
    rw [t.absent k hk]
    rfl

@[simp] theorem commit_cell : (t.commit p).cell k = (t.cell k).commit p := rfl

@[simp] theorem rollback_cell : (t.rollback p).cell k = (t.cell k).release p := rfl

/-- The commit of a transaction that holds no row of the table. -/
theorem commit_of_free (h : ∀ k, ¬ (t.cell k).heldBy p) : t.commit p = t := by
  obtain ⟨keys, cell, nodup, absent⟩ := t
  have hcell : (fun k => (cell k).commit p) = cell :=
    funext fun k => Cell.commit_of_not_heldBy (h k)
  unfold commit
  congr

/-- A row that `p` sees has a key. -/
theorem mem_keys_of_visible {row : V} (h : (t.cell k).visible p = some row) : k ∈ t.keys := by
  by_contra hk
  rw [t.absent k hk] at h
  cases h

theorem mem_read {row : V} : row ∈ t.read p ↔ ∃ k ∈ t.keys, (t.cell k).visible p = some row :=
  List.mem_filterMap

variable [DecidableEq K]

/-- A table of committed rows; of two rows with one key the first counts. -/
def stored (key : V → K) (rows : List V) : LockedTable K V where
  keys := (rows.map key).dedup
  cell := fun k => .stored (rows.find? fun row => key row = k)
  nodup := List.nodup_dedup _
  absent := fun k hk => by
    have hnone : (rows.find? fun row => decide (key row = k)) = none := by
      rw [List.find?_eq_none]
      intro row hrow hkey
      rw [decide_eq_true_eq] at hkey
      exact hk (List.mem_dedup.mpr (hkey ▸ List.mem_map_of_mem hrow))
    rw [hnone]

def set (t : LockedTable K V) (k : K) (c : Cell V) : LockedTable K V where
  keys := if k ∈ t.keys then t.keys else t.keys ++ [k]
  cell := Function.update t.cell k c
  nodup := by
    split
    · exact t.nodup
    · rename_i hk
      refine List.nodup_append.mpr ⟨t.nodup, List.nodup_singleton k, fun a ha b hb hab => ?_⟩
      rw [List.mem_singleton] at hb
      exact hk (hb ▸ hab ▸ ha)
  absent := fun j hj => by
    have hne : j ≠ k := by
      rintro rfl
      split at hj
      · rename_i hk
        exact hj hk
      · exact hj (List.mem_append_right _ (List.mem_singleton_self j))
    rw [Function.update_of_ne hne]
    refine t.absent j fun hmem => ?_
    split at hj
    · exact hj hmem
    · exact hj (List.mem_append_left _ hmem)

@[simp] theorem set_cell_self : (t.set k c).cell k = c := Function.update_self ..

theorem set_cell_of_ne (hj : j ≠ k) : (t.set k c).cell j = t.cell j := Function.update_of_ne hj ..

/-- A property of every cell after one was set. -/
theorem set_cell_cases {P : Cell V → Prop} (hk : j = k → P c) (hj : j ≠ k → P (t.cell j)) :
    P ((t.set k c).cell j) := by
  by_cases hjk : j = k
  · subst hjk
    rw [set_cell_self]
    exact hk rfl
  · rw [set_cell_of_ne hjk]
    exact hj hjk

end LockedTable

end Lib
end ERP
