import Mathlib.Algebra.BigOperators.Group.List.Basic
import Mathlib.Algebra.Order.BigOperators.Group.List
import Mathlib.Algebra.Order.Ring.Rat
import Mathlib.Tactic.Ring
import Mathlib.Tactic.Linarith

/-!
# Keyed tables

A table is a list of rows in insertion order whose keys grow and stay below the
next key to hand out.  An update by key changes one row; what a sum over the
table then gains is what that row gained.
-/

namespace ERP
namespace Lib

variable {α : Type} {key : α → Nat} {n m : Nat} {rows : List α} {row : α}

/-- The keys grow along the table and are all below `n`. -/
structure Keyed (key : α → Nat) (n : Nat) (rows : List α) : Prop where
  sorted : rows.Pairwise fun r s => key r < key s
  lt : ∀ r ∈ rows, key r < n

/-- Where no two rows have the same key, a key names its row. -/
theorem eq_of_key_of_ne {κ : Type} {key : α → κ} (h : rows.Pairwise fun r s => key r ≠ key s)
    {r s : α} (hr : r ∈ rows) (hs : s ∈ rows) (hrs : key r = key s) : r = s := by
  have hne : rows.Pairwise fun r s => key r = key s → r = s :=
    h.imp fun hne heq => absurd heq hne
  have hflip : rows.Pairwise (flip fun r s => key r = key s → r = s) :=
    h.imp fun hne heq => absurd heq.symm hne
  exact List.Pairwise.forall_of_forall_of_flip (fun _ _ _ => rfl) hne hflip hr hs hrs

/-- What a sum gains when the row with a key of its own is updated. -/
theorem sum_update_of_ne (h : rows.Pairwise fun r s => key r ≠ key s) (hrow : row ∈ rows)
    (f : α → α) (g : α → ℚ) :
    ((rows.map fun r => if key r = key row then f r else r).map g).sum =
      (rows.map g).sum + (g (f row) - g row) := by
  induction rows with
  | nil => exact absurd hrow List.not_mem_nil
  | cons r rest ih =>
      obtain ⟨hhead, htail⟩ := List.pairwise_cons.mp h
      simp only [List.map_cons, List.sum_cons]
      rcases List.mem_cons.mp hrow with rfl | hmem
      · have hid : (rest.map fun s => if key s = key row then f s else s) = rest := by
          conv_rhs => rw [← List.map_id rest]
          refine List.map_congr_left fun s hs => ?_
          rw [if_neg (hhead s hs).symm]
          rfl
        rw [hid, if_pos rfl]
        ring
      · rw [if_neg (hhead row hmem), ih htail hmem]
        ring

namespace Keyed

theorem mono (h : Keyed key n rows) (hnm : n ≤ m) : Keyed key m rows :=
  ⟨h.sorted, fun r hr => Nat.lt_of_lt_of_le (h.lt r hr) hnm⟩

theorem append (h : Keyed key n rows) (hrow : key row = n) :
    Keyed key (n + 1) (rows ++ [row]) := by
  refine ⟨?_, fun r hr => ?_⟩
  · rw [List.pairwise_append]
    refine ⟨h.sorted, List.pairwise_singleton _ _, fun r hr s hs => ?_⟩
    rw [List.mem_singleton] at hs
    rw [hs, hrow]
    exact h.lt r hr
  · rcases List.mem_append.mp hr with hr | hr
    · exact Nat.lt_succ_of_lt (h.lt r hr)
    · rw [List.mem_singleton] at hr
      rw [hr, hrow]
      exact Nat.lt_succ_self n

theorem map (h : Keyed key n rows) {f : α → α} (hf : ∀ r ∈ rows, key (f r) = key r) :
    Keyed key n (rows.map f) := by
  refine ⟨?_, fun r hr => ?_⟩
  · rw [List.pairwise_map]
    refine h.sorted.imp_of_mem fun {r s} hr hs hrs => ?_
    rw [hf r hr, hf s hs]
    exact hrs
  · obtain ⟨s, hs, rfl⟩ := List.mem_map.mp hr
    rw [hf s hs]
    exact h.lt s hs

theorem eq_of_key (h : Keyed key n rows) {r s : α} (hr : r ∈ rows) (hs : s ∈ rows)
    (hrs : key r = key s) : r = s :=
  eq_of_key_of_ne (h.sorted.imp Nat.ne_of_lt) hr hs hrs

theorem key_ne (h : Keyed key n rows) (hrow : row ∈ rows) : key row ≠ n :=
  Nat.ne_of_lt (h.lt row hrow)

/-- A lookup by key finds the row that has it. -/
theorem find?_eq (h : Keyed key n rows) (hrow : row ∈ rows) :
    rows.find? (fun r => key r = key row) = some row := by
  have hsome : (rows.find? fun r => key r = key row).isSome :=
    List.find?_isSome.mpr ⟨row, hrow, by simp⟩
  obtain ⟨r, hr⟩ := Option.isSome_iff_exists.mp hsome
  have hkey : key r = key row := by simpa using List.find?_some hr
  rw [hr, h.eq_of_key (List.mem_of_find?_eq_some hr) hrow hkey]

/-- An update that only `row` can satisfy is an update by its key. -/
theorem update_eq (h : Keyed key n rows) (hrow : row ∈ rows) {p : α → Bool} {f : α → α}
    (hp : p row = true) (honly : ∀ r ∈ rows, p r = true → key r = key row) :
    (rows.map fun r => if p r then f r else r) =
      rows.map fun r => if key r = key row then f r else r := by
  refine List.map_congr_left fun r hr => ?_
  by_cases hk : key r = key row
  · rw [if_pos hk, h.eq_of_key hr hrow hk, if_pos hp]
  · have hnp : ¬ p r = true := fun hpr => hk (honly r hr hpr)
    rw [if_neg hk, if_neg hnp]

/-- What a sum over the table gains when one row is updated. -/
theorem sum_update (h : Keyed key n rows) (hrow : row ∈ rows) (f : α → α) (g : α → ℚ) :
    ((rows.map fun r => if key r = key row then f r else r).map g).sum =
      (rows.map g).sum + (g (f row) - g row) :=
  sum_update_of_ne (h.sorted.imp Nat.ne_of_lt) hrow f g

end Keyed

/-- A sum over the rows that satisfy `p` and a sum over the others make up the
sum over all. -/
theorem sum_filter_add_sum_filter_not (rows : List α) (p : α → Bool) (g : α → ℚ) :
    (rows.map g).sum =
      ((rows.filter p).map g).sum + ((rows.filter fun r => !p r).map g).sum := by
  induction rows with
  | nil => simp
  | cons r rest ih =>
      by_cases hp : p r = true
      · simp only [List.map_cons, List.sum_cons, List.filter_cons_of_pos hp, ih]
        rw [List.filter_cons_of_neg (by simp [hp])]
        ring
      · simp only [List.map_cons, List.sum_cons, List.filter_cons_of_neg hp, ih]
        rw [List.filter_cons_of_pos (by simp [hp])]
        simp only [List.map_cons, List.sum_cons]
        ring

/-- A sum over the rows that satisfy `p`, as a sum over all. -/
theorem sum_filter_eq (rows : List α) (p : α → Prop) [DecidablePred p] (g : α → ℚ) :
    ((rows.filter fun r => p r).map g).sum = (rows.map fun r => if p r then g r else 0).sum := by
  induction rows with
  | nil => rfl
  | cons r rest ih =>
      by_cases hp : p r
      · rw [List.filter_cons_of_pos (by simpa using hp), List.map_cons, List.sum_cons, ih,
          List.map_cons, List.sum_cons, if_pos hp]
      · rw [List.filter_cons_of_neg (by simpa using hp), ih, List.map_cons, List.sum_cons,
          if_neg hp, zero_add]

/-- The sum over the only row that satisfies `p`. -/
theorem sum_unique {p : α → Prop} [DecidablePred p] (h : rows.Pairwise fun r s => ¬ (p r ∧ p s))
    (hrow : row ∈ rows) (hp : p row) (g : α → ℚ) :
    (rows.map fun r => if p r then g r else 0).sum = g row := by
  induction rows with
  | nil => exact absurd hrow List.not_mem_nil
  | cons r rest ih =>
      obtain ⟨hhead, htail⟩ := List.pairwise_cons.mp h
      rw [List.map_cons, List.sum_cons]
      rcases List.mem_cons.mp hrow with rfl | hmem
      · have hzero : (rest.map fun r => if p r then g r else 0).sum = 0 := by
          refine List.sum_eq_zero fun x hx => ?_
          obtain ⟨s, hs, rfl⟩ := List.mem_map.mp hx
          exact if_neg fun hps => hhead s hs ⟨hp, hps⟩
        rw [if_pos hp, hzero, add_zero]
      · rw [if_neg fun hpr => hhead row hmem ⟨hpr, hp⟩, zero_add, ih htail hmem]

end Lib
end ERP
