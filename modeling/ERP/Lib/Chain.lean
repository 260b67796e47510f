import Mathlib.Algebra.Order.BigOperators.Group.List
import Mathlib.Data.List.Nodup
import Mathlib.Data.Rat.Defs
import Mathlib.Algebra.Order.Ring.Rat
import Mathlib.Tactic.Linarith

/-!
# Chains of entries

A ledger is read entry by entry; each starts where the one before it stopped.  Where an
entry moves the balance by its weight, the chain is decided by what stands before each
entry, and where all weights are positive, by the order of the entries alone.
-/

namespace ERP
namespace Lib

variable {α κ : Type}

/-- The first entry starts at `start`, each next where the one before it stopped, and the
last stops at `stop`. -/
def Contiguous (before after : α → ℚ) : ℚ → List α → ℚ → Prop
  | start, [], stop => start = stop
  | start, x :: rest, stop => before x = start ∧ Contiguous before after (after x) rest stop

theorem contiguous_map {β : Type} {before after : α → ℚ} {f : β → α} {start stop : ℚ}
    {xs : List β} :
    Contiguous before after start (xs.map f) stop ↔
      Contiguous (fun x => before (f x)) (fun x => after (f x)) start xs stop := by
  induction xs generalizing start with
  | nil => rfl
  | cons x rest ih => exact and_congr_right fun _ => ih

/-- Two chains, one taking up where the other stopped. -/
theorem contiguous_append {before after : α → ℚ} {start stop : ℚ} {xs ys : List α} :
    Contiguous before after start (xs ++ ys) stop ↔
      ∃ middle, Contiguous before after start xs middle ∧
        Contiguous before after middle ys stop := by
  induction xs generalizing start with
  | nil =>
      constructor
      · intro h
        exact ⟨start, rfl, h⟩
      · rintro ⟨middle, rfl, h⟩
        exact h
  | cons x rest ih =>
      show before x = start ∧ Contiguous before after (after x) (rest ++ ys) stop ↔ _
      rw [ih]
      constructor
      · rintro ⟨hx, middle, hrest, hys⟩
        exact ⟨middle, ⟨hx, hrest⟩, hys⟩
      · rintro ⟨middle, ⟨hx, hrest⟩, hys⟩
        exact ⟨hx, middle, hrest, hys⟩

variable [DecidableEq κ] {key : α → κ} {weight : α → ℚ} {xs ys : List α}

/-- What stands before the entry with key `k`. -/
def sumBefore (key : α → κ) (weight : α → ℚ) (xs : List α) (k : κ) : ℚ :=
  ((xs.takeWhile fun x => key x ≠ k).map weight).sum

theorem sumBefore_head (x : α) (rest : List α) :
    sumBefore key weight (x :: rest) (key x) = 0 := by
  unfold sumBefore
  rw [List.takeWhile_cons_of_neg (by simp)]
  rfl

theorem sumBefore_tail {x : α} {rest : List α} {k : κ} (h : key x ≠ k) :
    sumBefore key weight (x :: rest) k = weight x + sumBefore key weight rest k := by
  unfold sumBefore
  rw [List.takeWhile_cons_of_pos (by simpa using h), List.map_cons, List.sum_cons]

/-- Entries that move the balance by their weights are a chain when each starts at what
stands before it. -/
theorem contiguous_iff {before after : α → ℚ} {start stop : ℚ}
    (hafter : ∀ x ∈ xs, after x = before x + weight x)
    (hkeys : xs.Pairwise fun x y => key x ≠ key y) :
    Contiguous before after start xs stop ↔
      (∀ x ∈ xs, before x = start + sumBefore key weight xs (key x)) ∧
        stop = start + (xs.map weight).sum := by
  induction xs generalizing start with
  | nil =>
      show start = stop ↔ _
      rw [List.map_nil, List.sum_nil, add_zero]
      exact ⟨fun h => ⟨fun x hx => absurd hx List.not_mem_nil, h.symm⟩, fun h => h.2.symm⟩
  | cons x rest ih =>
      obtain ⟨hhead, htail⟩ := List.pairwise_cons.mp hkeys
      have hx := hafter x List.mem_cons_self
      show before x = start ∧ Contiguous before after (after x) rest stop ↔ _
      rw [ih (fun y hy => hafter y (List.mem_cons_of_mem x hy)) htail, List.map_cons,
        List.sum_cons]
      constructor
      · rintro ⟨hfirst, hothers, hstop⟩
        refine ⟨fun y hy => ?_, by rw [hstop, hx, hfirst, add_assoc]⟩
        rcases List.mem_cons.mp hy with rfl | hy
        · rw [sumBefore_head, hfirst, add_zero]
        · rw [sumBefore_tail (hhead y hy), hothers y hy, hx, hfirst, add_assoc]
      · rintro ⟨hall, hstop⟩
        have hfirst := hall x List.mem_cons_self
        rw [sumBefore_head, add_zero] at hfirst
        refine ⟨hfirst, fun y hy => ?_, by rw [hstop, hx, hfirst, add_assoc]⟩
        rw [hall y (List.mem_cons_of_mem x hy), sumBefore_tail (hhead y hy), hx, hfirst,
          add_assoc]

theorem sumBefore_nonneg (hpos : ∀ x ∈ xs, 0 < weight x) (k : κ) :
    0 ≤ sumBefore key weight xs k := by
  refine List.sum_nonneg fun w hw => ?_
  obtain ⟨x, hx, rfl⟩ := List.mem_map.mp hw
  exact (hpos x ((List.takeWhile_sublist _).subset hx)).le

/-- Positive weights add up on the way through the list. -/
theorem sumBefore_strict (hpos : ∀ x ∈ xs, 0 < weight x)
    (hkeys : xs.Pairwise fun x y => key x ≠ key y) :
    xs.Pairwise fun x y => sumBefore key weight xs (key x) < sumBefore key weight xs (key y) := by
  induction xs with
  | nil => exact .nil
  | cons x rest ih =>
      obtain ⟨hhead, htail⟩ := List.pairwise_cons.mp hkeys
      have hx := hpos x List.mem_cons_self
      have hrest : ∀ y ∈ rest, 0 < weight y := fun y hy => hpos y (List.mem_cons_of_mem x hy)
      refine List.pairwise_cons.mpr ⟨fun y hy => ?_, ?_⟩
      · have hnonneg : 0 ≤ sumBefore key weight rest (key y) := sumBefore_nonneg hrest (key y)
        rw [sumBefore_head, sumBefore_tail (hhead y hy)]
        linarith
      · refine (ih hrest htail).imp_of_mem fun {y z} hy hz hlt => ?_
        rw [sumBefore_tail (hhead y hy), sumBefore_tail (hhead z hz)]
        linarith

/-- In two orders of entries of positive weight the same stands before every entry when
the orders are the same. -/
theorem sumBefore_agree_iff (hperm : xs.Perm ys) (hpos : ∀ x ∈ xs, 0 < weight x)
    (hkeys : xs.Pairwise fun x y => key x ≠ key y) :
    (∀ x ∈ xs, sumBefore key weight xs (key x) = sumBefore key weight ys (key x)) ↔
      xs = ys := by
  refine ⟨fun hsame => ?_, fun heq x _ => by rw [heq]⟩
  have hxs := sumBefore_strict hpos hkeys
  have hpos' : ∀ y ∈ ys, 0 < weight y := fun y hy => hpos y (hperm.mem_iff.mpr hy)
  have hkeys' : ys.Pairwise fun x y => key x ≠ key y :=
    (hperm.pairwise_iff fun h => Ne.symm h).mp hkeys
  have hys : ys.Pairwise fun x y =>
      sumBefore key weight ys (key x) < sumBefore key weight ys (key y) :=
    sumBefore_strict hpos' hkeys'
  have hys' : ys.Pairwise fun x y =>
      sumBefore key weight xs (key x) < sumBefore key weight xs (key y) :=
    hys.imp_of_mem fun {x y} hx hy hlt => by
      rw [hsame x (hperm.mem_iff.mpr hx), hsame y (hperm.mem_iff.mpr hy)]
      exact hlt
  exact List.Perm.eq_of_pairwise (fun x y _ _ hxy hyx => absurd hxy (not_lt.mpr hyx.le)) hxs hys'
    hperm

end Lib
end ERP
