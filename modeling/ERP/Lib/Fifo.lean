import Mathlib.Algebra.BigOperators.Group.List.Basic
import Mathlib.Algebra.Order.BigOperators.Group.List
import Mathlib.Algebra.Order.Ring.Rat
import Mathlib.Tactic.Ring
import Mathlib.Tactic.Linarith

/-!
# Drawing on a weighted queue

`draw weight queue q` takes `q` from the front of a queue whose elements have a
weight, each element giving at most what it weighs.  First in, first out is the
order of the list.
-/

namespace ERP
namespace Lib

variable {α : Type} {weight : α → ℚ} {queue : List α} {q : ℚ}

/-- The elements drawn on, with what is taken of each. -/
def draw (weight : α → ℚ) : List α → ℚ → List (α × ℚ)
  | [], _ => []
  | a :: rest, q =>
    if q ≤ 0 then [] else (a, min (weight a) q) :: draw weight rest (q - min (weight a) q)

/-- How much a draw took altogether. -/
def drawn (d : List (α × ℚ)) : ℚ := (d.map (·.2)).sum

/-- How much a draw took of the elements with key `k`. -/
def drawnFrom (key : α → Nat) (k : Nat) (d : List (α × ℚ)) : ℚ :=
  (d.map fun e => if key e.1 = k then e.2 else 0).sum

/-- A draw takes what is asked for, or all there is. -/
theorem drawn_draw (hpos : ∀ a ∈ queue, 0 ≤ weight a) (hq : 0 ≤ q) :
    drawn (draw weight queue q) = min q (queue.map weight).sum := by
  induction queue generalizing q with
  | nil => simp [draw, drawn, hq]
  | cons a rest ih =>
      have ha : 0 ≤ weight a := hpos a List.mem_cons_self
      have hrest : ∀ b ∈ rest, 0 ≤ weight b := fun b hb => hpos b (List.mem_cons_of_mem a hb)
      have hsum : 0 ≤ (rest.map weight).sum := by
        refine List.sum_nonneg fun x hx => ?_
        obtain ⟨b, hb, rfl⟩ := List.mem_map.mp hx
        exact hrest b hb
      rw [draw]
      by_cases hzero : q ≤ 0
      · rw [if_pos hzero]
        simp only [drawn, List.map_nil, List.sum_nil, List.map_cons, List.sum_cons]
        rw [min_eq_left (by linarith)]
        linarith
      · rw [if_neg hzero]
        have htail := ih hrest (q := q - min (weight a) q)
          (by linarith [min_le_right (weight a) q])
        simp only [drawn, List.map_cons, List.sum_cons] at htail ⊢
        rw [htail]
        rcases le_total (weight a) q with hle | hle
        · rw [min_eq_left hle, ← min_add_add_left]
          congr 1
          ring
        · rw [min_eq_right hle, sub_self, min_eq_left hsum, min_eq_left (by linarith), add_zero]

theorem mem_of_mem_draw {e : α × ℚ} (h : e ∈ draw weight queue q) : e.1 ∈ queue := by
  induction queue generalizing q with
  | nil => simp [draw] at h
  | cons a rest ih =>
      rw [draw] at h
      split at h
      · simp at h
      · rcases List.mem_cons.mp h with rfl | h
        · exact List.mem_cons_self
        · exact List.mem_cons_of_mem a (ih h)

theorem drawn_nonneg_of_mem {e : α × ℚ} (hpos : ∀ a ∈ queue, 0 ≤ weight a)
    (h : e ∈ draw weight queue q) : 0 ≤ e.2 := by
  induction queue generalizing q with
  | nil => simp [draw] at h
  | cons a rest ih =>
      rw [draw] at h
      split at h
      · simp at h
      · rename_i hq
        rcases List.mem_cons.mp h with rfl | h
        · exact le_min (hpos a List.mem_cons_self) (le_of_not_ge hq)
        · exact ih (fun b hb => hpos b (List.mem_cons_of_mem a hb)) h

theorem drawnFrom_eq_zero {key : α → Nat} {k : Nat} {d : List (α × ℚ)}
    (h : ∀ e ∈ d, key e.1 ≠ k) : drawnFrom key k d = 0 := by
  refine List.sum_eq_zero fun x hx => ?_
  obtain ⟨e, he, rfl⟩ := List.mem_map.mp hx
  exact if_neg (h e he)

theorem drawnFrom_nonneg {key : α → Nat} {k : Nat} (hpos : ∀ a ∈ queue, 0 ≤ weight a) :
    0 ≤ drawnFrom key k (draw weight queue q) := by
  refine List.sum_nonneg fun x hx => ?_
  obtain ⟨e, he, rfl⟩ := List.mem_map.mp hx
  split
  · exact drawn_nonneg_of_mem hpos he
  · exact le_refl 0

/-- No element gives more than it weighs, when no two share a key. -/
theorem drawnFrom_le {key : α → Nat} (hpos : ∀ a ∈ queue, 0 ≤ weight a)
    (hkeys : queue.Pairwise fun a b => key a ≠ key b) {a : α} (ha : a ∈ queue) :
    drawnFrom key (key a) (draw weight queue q) ≤ weight a := by
  induction queue generalizing q with
  | nil => exact absurd ha List.not_mem_nil
  | cons b rest ih =>
      have hrest : ∀ c ∈ rest, 0 ≤ weight c := fun c hc => hpos c (List.mem_cons_of_mem b hc)
      obtain ⟨hhead, htail⟩ := List.pairwise_cons.mp hkeys
      rw [draw]
      split
      · exact hpos a ha
      · simp only [drawnFrom, List.map_cons, List.sum_cons]
        rcases List.mem_cons.mp ha with rfl | ha
        · have hzero : drawnFrom key (key a) (draw weight rest (q - min (weight a) q)) = 0 :=
            drawnFrom_eq_zero fun e he => (hhead e.1 (mem_of_mem_draw he)).symm
          rw [drawnFrom] at hzero
          rw [if_pos rfl, hzero, add_zero]
          exact min_le_left _ _
        · have hne : key b ≠ key a := hhead a ha
          have := ih hrest htail ha (q := q - min (weight b) q)
          rw [drawnFrom] at this
          rw [if_neg hne, zero_add]
          exact this

end Lib
end ERP
