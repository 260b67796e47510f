import Mathlib.Data.List.Sort
import Mathlib.Data.List.TakeWhile
import Mathlib.Data.Prod.Lex

/-!
# Sorting rows by a key

`ORDER BY` over a linear order of keys.  Insertion sort is stable and reduces
in the kernel; only that it permutes the rows, and that it leaves rows alone
that are in order already, is used.
-/

namespace ERP
namespace Lib

variable {α κ : Type} [LinearOrder κ]

/-- The rows in ascending order of `key`, rows with equal keys in table order. -/
def orderBy (key : α → κ) (rows : List α) : List α :=
  rows.insertionSort fun a b => key a ≤ key b

theorem orderBy_perm (key : α → κ) (rows : List α) : (orderBy key rows).Perm rows :=
  List.perm_insertionSort _ rows

@[simp] theorem mem_orderBy {key : α → κ} {rows : List α} {a : α} :
    a ∈ orderBy key rows ↔ a ∈ rows :=
  (orderBy_perm key rows).mem_iff

theorem orderBy_sorted (key : α → κ) (rows : List α) :
    (orderBy key rows).Pairwise fun a b => key a ≤ key b :=
  List.pairwise_insertionSort _ rows

/-- Rows already in order are not moved. -/
theorem orderBy_eq_self {key : α → κ} {rows : List α}
    (h : rows.Pairwise fun a b => key a ≤ key b) : orderBy key rows = rows :=
  List.Pairwise.insertionSort_eq h

/-- Where an element is inserted does not depend on the elements that are left out. -/
theorem filter_orderedInsert {key : α → κ} {p : α → Bool} {a : α} {rows : List α}
    (h : rows.Pairwise fun x y => key x ≤ key y) :
    (rows.orderedInsert (fun x y => key x ≤ key y) a).filter p =
      if p a then (rows.filter p).orderedInsert (fun x y => key x ≤ key y) a
      else rows.filter p := by
  induction rows with
  | nil =>
      rw [List.orderedInsert_nil, List.filter_cons]
      rfl
  | cons b rest ih =>
      obtain ⟨hb, hrest⟩ := List.pairwise_cons.mp h
      rw [List.orderedInsert_cons]
      by_cases hab : key a ≤ key b
      · rw [if_pos hab, List.filter_cons]
        split
        · -- everything that is kept of the rows comes after `a`
          cases hkept : (b :: rest).filter p with
          | nil => rfl
          | cons c more =>
              have hc : c ∈ b :: rest := (List.mem_filter.mp (hkept ▸ List.mem_cons_self)).1
              have hbc : key b ≤ key c := by
                rcases List.mem_cons.mp hc with rfl | hc
                · exact le_refl _
                · exact hb c hc
              rw [List.orderedInsert_cons, if_pos (le_trans hab hbc)]
        · rfl
      · rw [if_neg hab, List.filter_cons, ih hrest, List.filter_cons]
        by_cases hpa : p a = true
        · rw [if_pos hpa, if_pos hpa]
          split
          · rw [List.orderedInsert_cons, if_neg hab]
          · rfl
        · rw [if_neg hpa, if_neg hpa]

/-- Sorting commutes with leaving rows out. -/
theorem orderBy_filter (key : α → κ) (p : α → Bool) (rows : List α) :
    orderBy key (rows.filter p) = (orderBy key rows).filter p := by
  induction rows with
  | nil => rfl
  | cons a rest ih =>
      have hsorted := orderBy_sorted key rest
      show _ = ((orderBy key rest).orderedInsert (fun x y => key x ≤ key y) a).filter p
      rw [filter_orderedInsert hsorted, List.filter_cons]
      split
      · rw [← ih]
        rfl
      · exact ih

/-- Sorting commutes with a change of the rows that leaves their keys. -/
theorem orderBy_map {β : Type} {key : α → κ} {key' : β → κ} {f : α → β} {rows : List α}
    (h : ∀ a ∈ rows, key' (f a) = key a) :
    orderBy key' (rows.map f) = (orderBy key rows).map f := by
  refine (List.map_insertionSort _ _ f rows fun a ha b hb => ?_).symm
  rw [h a ha, h b hb]

/-- Two keys that order the rows alike sort them alike. -/
theorem orderBy_congr {κ' : Type} [LinearOrder κ'] {key : α → κ} {key' : α → κ'} {rows : List α}
    (h : ∀ a b, key a ≤ key b ↔ key' a ≤ key' b) : orderBy key rows = orderBy key' rows := by
  have hmap := List.map_insertionSort (fun a b => key a ≤ key b) (fun a b => key' a ≤ key' b) id
    rows fun a _ b _ => h a b
  rw [List.map_id, List.map_id] at hmap
  exact hmap

/-- Where those that satisfy `p` come last, the others and they make up the list. -/
theorem filter_append_filter {p : α → Bool} {xs : List α}
    (h : xs.Pairwise fun a b => p a = true → p b = true) :
    xs = (xs.filter fun x => !p x) ++ xs.filter p := by
  induction xs with
  | nil => rfl
  | cons x rest ih =>
      obtain ⟨hx, hrest⟩ := List.pairwise_cons.mp h
      by_cases hp : p x = true
      · have hall : ∀ y ∈ rest, p y = true := fun y hy => hx y hy hp
        have hnone : (x :: rest).filter (fun y => !p y) = [] := by
          refine List.filter_eq_nil_iff.mpr fun y hy => ?_
          rcases List.mem_cons.mp hy with rfl | hy
          · simp [hp]
          · simp [hall y hy]
        have hfull : (x :: rest).filter p = x :: rest := by
          refine List.filter_eq_self.mpr fun y hy => ?_
          rcases List.mem_cons.mp hy with rfl | hy
          · exact hp
          · exact hall y hy
        rw [hnone, hfull, List.nil_append]
      · rw [List.filter_cons_of_pos (by simpa using hp), List.filter_cons_of_neg hp,
          List.cons_append, ← ih hrest]

/-- Where not every element behind one that satisfies `p` does, there is a first one that
does and a first one behind it that does not. -/
theorem exists_first_break {p : α → Bool} {xs : List α}
    (h : ¬ xs.Pairwise fun a b => p a = true → p b = true) :
    ∃ front run x back, xs = front ++ (run ++ x :: back) ∧ (∀ a ∈ front, p a = false) ∧
      run ≠ [] ∧ (∀ a ∈ run, p a = true) ∧ p x = false := by
  induction xs with
  | nil => exact absurd List.Pairwise.nil h
  | cons a rest ih =>
      cases hp : p a with
      | false =>
          have hrest : ¬ rest.Pairwise fun a b => p a = true → p b = true := fun hrest =>
            h (List.pairwise_cons.mpr ⟨fun b _ ha => absurd (hp.symm.trans ha) (by decide), hrest⟩)
          obtain ⟨front, run, x, back, hsplit, hfront, hrun⟩ := ih hrest
          refine ⟨a :: front, run, x, back, by rw [hsplit, List.cons_append], fun b hb => ?_, hrun⟩
          rcases List.mem_cons.mp hb with rfl | hb
          · exact hp
          · exact hfront b hb
      | true =>
          cases hdrop : rest.dropWhile p with
          | nil =>
              refine absurd (List.pairwise_of_forall_mem_list fun b hb c hc _ => ?_) h
              rcases List.mem_cons.mp hc with rfl | hc
              · exact hp
              · exact List.dropWhile_eq_nil_iff.mp hdrop c hc
          | cons x back =>
              have hx : p x = false := by
                have hhead := List.head_dropWhile_not p (l := rest) (by rw [hdrop]; simp)
                simpa [hdrop] using hhead
              refine ⟨[], a :: rest.takeWhile p, x, back, ?_, by simp, by simp, fun b hb => ?_, hx⟩
              · rw [List.nil_append, List.cons_append, ← hdrop, List.takeWhile_append_dropWhile]
              · rcases List.mem_cons.mp hb with rfl | hb
                · exact hp
                · exact List.mem_takeWhile_imp hb

end Lib
end ERP
