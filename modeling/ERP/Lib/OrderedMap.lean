import Mathlib.Algebra.BigOperators.Group.List.Basic
import Mathlib.Algebra.Order.Ring.Rat
import Mathlib.Data.List.Nodup
import Mathlib.Tactic.Ring

/-!
# Maps in insertion order

`Map` of ECMAScript: `set` of a key that is there leaves it in its place, a new key
comes last, and a key that was deleted and set again comes last as well.  What an
entry holds is changed in place by setting it again.
-/

namespace ERP
namespace Lib

/-- Entries with distinct keys. -/
structure OrderedMap (κ α : Type) where
  entries : List (κ × α)
  nodup : (entries.map Prod.fst).Nodup

namespace OrderedMap

variable {κ α : Type}

def empty : OrderedMap κ α := ⟨[], List.nodup_nil⟩

def keys (m : OrderedMap κ α) : List κ := m.entries.map Prod.fst

def values (m : OrderedMap κ α) : List α := m.entries.map Prod.snd

def size (m : OrderedMap κ α) : Nat := m.entries.length

variable [DecidableEq κ]

def get (m : OrderedMap κ α) (k : κ) : Option α :=
  (m.entries.find? fun e => e.1 = k).map Prod.snd

def has (m : OrderedMap κ α) (k : κ) : Bool := k ∈ m.keys

/-- Replace the entry of the key, or append one. -/
def set (m : OrderedMap κ α) (k : κ) (v : α) : OrderedMap κ α :=
  if h : k ∈ m.keys then
    { entries := m.entries.map fun e => if e.1 = k then (k, v) else e
      nodup := by
        rw [List.map_map]
        have hfst : (Prod.fst ∘ fun e : κ × α => if e.1 = k then (k, v) else e) = Prod.fst := by
          funext e
          show (if e.1 = k then (k, v) else e).1 = e.1
          by_cases he : e.1 = k
          · rw [if_pos he, he]
          · rw [if_neg he]
        rw [hfst]
        exact m.nodup }
  else
    { entries := m.entries ++ [(k, v)]
      nodup := by
        rw [List.map_append, List.map_singleton]
        exact List.nodup_append.mpr ⟨m.nodup, List.nodup_singleton _, fun a ha b hb hab => by
          rw [hab, List.mem_singleton.mp hb] at ha
          exact h ha⟩ }

def delete (m : OrderedMap κ α) (k : κ) : OrderedMap κ α where
  entries := m.entries.filter fun e => e.1 ≠ k
  nodup := m.nodup.sublist (List.filter_sublist.map Prod.fst)

variable {m : OrderedMap κ α} {k j : κ} {v : α}

theorem get_eq_some_iff : m.get k = some v ↔ (k, v) ∈ m.entries := by
  unfold get
  constructor
  · intro h
    obtain ⟨e, he, rfl⟩ := Option.map_eq_some_iff.mp h
    have hk : e.1 = k := by simpa using List.find?_some he
    rw [← hk]
    exact List.mem_of_find?_eq_some he
  · intro h
    have hsome : (m.entries.find? fun e => e.1 = k).isSome :=
      List.find?_isSome.mpr ⟨(k, v), h, decide_eq_true rfl⟩
    obtain ⟨e, he⟩ := Option.isSome_iff_exists.mp hsome
    have hk : e.1 = k := by simpa using List.find?_some he
    have heq : e = (k, v) :=
      List.inj_on_of_nodup_map m.nodup (List.mem_of_find?_eq_some he) h hk
    rw [he, heq, Option.map_some]

theorem get_eq_none_iff : m.get k = none ↔ k ∉ m.keys := by
  unfold get keys
  rw [Option.map_eq_none_iff, List.find?_eq_none]
  constructor
  · intro h hmem
    obtain ⟨e, he, rfl⟩ := List.mem_map.mp hmem
    exact h e he (decide_eq_true rfl)
  · intro h e he hk
    exact h (List.mem_map.mpr ⟨e, he, of_decide_eq_true hk⟩)

@[simp] theorem get_empty (k : κ) : (empty : OrderedMap κ α).get k = none := rfl

theorem has_iff : m.has k = true ↔ k ∈ m.keys := decide_eq_true_iff

theorem get_set (m : OrderedMap κ α) (k : κ) (v : α) (j : κ) :
    (m.set k v).get j = if j = k then some v else m.get j := by
  by_cases hk : k ∈ m.keys
  · unfold set
    rw [dif_pos hk]
    by_cases hj : j = k
    · subst hj
      rw [if_pos rfl]
      obtain ⟨e, he, hej⟩ := List.mem_map.mp hk
      exact get_eq_some_iff.mpr (List.mem_map.mpr ⟨e, he, if_pos hej⟩)
    · rw [if_neg hj]
      unfold get
      rw [List.find?_map]
      have hpred : ((fun e : κ × α => decide (e.1 = j)) ∘ fun e => if e.1 = k then (k, v) else e) =
          fun e => decide (e.1 = j) := by
        funext e
        show decide ((if e.1 = k then (k, v) else e).1 = j) = decide (e.1 = j)
        by_cases he : e.1 = k
        · rw [if_pos he, he]
        · rw [if_neg he]
      rw [hpred]
      cases hfound : m.entries.find? fun e => decide (e.1 = j) with
      | none => rfl
      | some e =>
          have hej : e.1 = j := by simpa using List.find?_some hfound
          rw [Option.map_some, if_neg (fun h => hj (hej.symm.trans h))]
  · unfold set
    rw [dif_neg hk]
    unfold get
    rw [List.find?_append]
    by_cases hj : j = k
    · subst hj
      rw [if_pos rfl]
      have hnone : m.entries.find? (fun e => decide (e.1 = j)) = none :=
        List.find?_eq_none.mpr fun e he hej =>
          hk (List.mem_map.mpr ⟨e, he, of_decide_eq_true hej⟩)
      rw [hnone]
      simp
    · rw [if_neg hj]
      have hnone : [(k, v)].find? (fun e => decide (e.1 = j)) = none :=
        List.find?_eq_none.mpr fun e he hej => by
          rw [List.mem_singleton.mp he] at hej
          exact hj (of_decide_eq_true hej).symm
      rw [hnone, Option.or_none]

@[simp] theorem get_delete (m : OrderedMap κ α) (k j : κ) :
    (m.delete k).get j = if j = k then none else m.get j := by
  by_cases hj : j = k
  · subst hj
    rw [if_pos rfl]
    refine get_eq_none_iff.mpr fun hmem => ?_
    obtain ⟨e, he, hej⟩ := List.mem_map.mp hmem
    exact (of_decide_eq_true (List.mem_filter.mp he).2) hej
  · rw [if_neg hj]
    unfold get delete
    rw [List.find?_filter]
    congr 1
    refine congrArg (fun p => m.entries.find? p) (funext fun e => ?_)
    by_cases he : e.1 = j
    · have hne : e.1 ≠ k := fun h => hj (he.symm.trans h)
      simp [he, hj]
    · simp [he]

theorem mem_keys_set : j ∈ (m.set k v).keys ↔ j = k ∨ j ∈ m.keys := by
  rw [← not_iff_not, ← get_eq_none_iff, get_set, not_or, ← get_eq_none_iff]
  by_cases hj : j = k
  · simp [hj]
  · simp [hj]

theorem size_set (m : OrderedMap κ α) (k : κ) (v : α) :
    (m.set k v).size = if k ∈ m.keys then m.size else m.size + 1 := by
  unfold set
  by_cases hk : k ∈ m.keys
  · rw [dif_pos hk, if_pos hk]
    exact List.length_map _
  · rw [dif_neg hk, if_neg hk]
    exact List.length_append

/-- The values are those of the keys. -/
theorem map_values (m : OrderedMap κ α) (f : α → ℚ) :
    m.values.map f = m.keys.map fun k => ((m.get k).map f).getD 0 := by
  unfold values keys
  rw [List.map_map, List.map_map]
  refine List.map_congr_left fun e he => ?_
  have hget : m.get e.1 = some e.2 := get_eq_some_iff.mpr he
  show f e.2 = ((m.get e.1).map f).getD 0
  rw [hget]
  rfl

/-! ## Amounts by key -/

section Amounts

variable {A : Type} [AddCommMonoid A]

/-- What the entries of a key amount to. -/
def amount (f : α → A) (entries : List (κ × α)) (k : κ) : A :=
  ((entries.filter fun e => e.1 = k).map fun e => f e.2).sum

@[simp] theorem amount_nil (f : α → A) (k : κ) : amount f ([] : List (κ × α)) k = 0 := rfl

theorem amount_append (f : α → A) (front back : List (κ × α)) (k : κ) :
    amount f (front ++ back) k = amount f front k + amount f back k := by
  unfold amount
  rw [List.filter_append, List.map_append, List.sum_append]

theorem amount_cons (f : α → A) (e : κ × α) (rest : List (κ × α)) (k : κ) :
    amount f (e :: rest) k = amount f [e] k + amount f rest k :=
  amount_append f [e] rest k

theorem amount_single (f : α → A) (e : κ × α) (k : κ) :
    amount f [e] k = if e.1 = k then f e.2 else 0 := by
  unfold amount
  by_cases hk : e.1 = k
  · rw [List.filter_cons, if_pos (decide_eq_true hk), if_pos hk]
    simp
  · rw [List.filter_cons, if_neg (by simpa using hk), if_neg hk]
    rfl

/-- The amount of a key is what is kept under it. -/
theorem amount_entries (f : α → A) (m : OrderedMap κ α) (k : κ) :
    amount f m.entries k = ((m.get k).map f).getD 0 := by
  have hone (entries : List (κ × α)) (hnodup : (entries.map Prod.fst).Nodup) :
      amount f entries k = (((entries.find? fun e => e.1 = k).map Prod.snd).map f).getD 0 := by
    induction entries with
    | nil => rfl
    | cons e rest ih =>
        have hrest := List.nodup_cons.mp hnodup
        rw [amount_cons, amount_single]
        by_cases hk : e.1 = k
        · have hnone : rest.filter (fun e' => e'.1 = k) = [] :=
            List.filter_eq_nil_iff.mpr fun e' he' hek =>
              hrest.1 (List.mem_map.mpr ⟨e', he', (of_decide_eq_true hek).trans hk.symm⟩)
          have hfound : (e :: rest).find? (fun e' => e'.1 = k) = some e :=
            List.find?_cons_of_pos (decide_eq_true hk)
          unfold amount
          rw [if_pos hk, hfound, hnone]
          simp
        · have hother : (e :: rest).find? (fun e' => e'.1 = k) = rest.find? fun e' => e'.1 = k :=
            List.find?_cons_of_neg (by simpa using hk)
          rw [if_neg hk, zero_add, hother]
          exact ih hrest.2
  exact hone m.entries m.nodup

/-- Setting a key to what it had and something more adds that to the key alone. -/
theorem amount_set (f : α → A) (m : OrderedMap κ α) (k : κ) (v : α) {x : A}
    (h : f v = ((m.get k).map f).getD 0 + x) (j : κ) :
    amount f (m.set k v).entries j = amount f m.entries j + if k = j then x else 0 := by
  rw [amount_entries, amount_entries, get_set]
  by_cases hj : j = k
  · rw [if_pos hj, if_pos hj.symm, hj, Option.map_some, Option.getD_some, h]
  · rw [if_neg hj, if_neg (Ne.symm hj), add_zero]

end Amounts

/-- Deleting the keys of the first entries leaves the others. -/
theorem entries_delete_take (m : OrderedMap κ α) (n : Nat) :
    ((m.entries.take n).foldl (fun m e => m.delete e.1) m).entries = m.entries.drop n := by
  have hfold (removed : List (κ × α)) (m : OrderedMap κ α) :
      (removed.foldl (fun m e => m.delete e.1) m).entries =
        m.entries.filter fun e => e.1 ∉ removed.map Prod.fst := by
    induction removed generalizing m with
    | nil => exact (List.filter_eq_self.mpr fun e _ => by simp).symm
    | cons r removed ih =>
        rw [List.foldl_cons, ih (m.delete r.1)]
        unfold delete
        rw [List.filter_filter]
        refine List.filter_congr fun e _ => ?_
        simp only [List.map_cons, List.mem_cons, not_or, Bool.decide_and]
        exact Bool.and_comm _ _
  have hparts := m.nodup
  rw [← List.take_append_drop n m.entries, List.map_append] at hparts
  have hdisjoint := List.disjoint_of_nodup_append hparts
  have hsplit : m.entries.filter (fun e => e.1 ∉ (m.entries.take n).map Prod.fst) =
      (m.entries.take n ++ m.entries.drop n).filter
        fun e => e.1 ∉ (m.entries.take n).map Prod.fst := by
    rw [List.take_append_drop]
  rw [hfold, hsplit, List.filter_append]
  have hfront : (m.entries.take n).filter (fun e => e.1 ∉ (m.entries.take n).map Prod.fst) = [] :=
    List.filter_eq_nil_iff.mpr fun e he hnot =>
      of_decide_eq_true hnot (List.mem_map_of_mem he)
  have hback : (m.entries.drop n).filter (fun e => e.1 ∉ (m.entries.take n).map Prod.fst) =
      m.entries.drop n :=
    List.filter_eq_self.mpr fun e he =>
      decide_eq_true fun hmem => hdisjoint hmem (List.mem_map_of_mem he)
  rw [hfront, hback, List.nil_append]

end OrderedMap

/-- A sum over rows, one key after the other. -/
theorem sum_by_key {β κ : Type} [DecidableEq κ] (rows : List β) (key : β → κ) (g : β → ℚ)
    {keys : List κ} (hnodup : keys.Nodup) (hkeys : ∀ r ∈ rows, key r ∈ keys) :
    (keys.map fun k => ((rows.filter fun r => key r = k).map g).sum).sum = (rows.map g).sum := by
  induction rows with
  | nil => simp
  | cons r rest ih =>
      have hone : (keys.map fun k => if key r = k then g r else 0).sum = g r := by
        obtain ⟨before, after, hsplit⟩ := List.append_of_mem (hkeys r List.mem_cons_self)
        rw [hsplit, List.nodup_middle] at hnodup
        have hzero (ks : List κ) (hks : ks ⊆ before ++ after) :
            (ks.map fun k => if key r = k then g r else 0).sum = 0 :=
          List.sum_eq_zero fun x hx => by
            obtain ⟨k, hk, rfl⟩ := List.mem_map.mp hx
            refine if_neg fun heq => (List.nodup_cons.mp hnodup).1 ?_
            rw [heq]
            exact hks hk
        rw [hsplit, List.map_append, List.map_cons, List.sum_append, List.sum_cons,
          hzero before (List.subset_append_left _ _), hzero after (List.subset_append_right _ _),
          if_pos rfl, zero_add, add_zero]
      have hsplit (k : κ) : (((r :: rest).filter fun r => key r = k).map g).sum =
          (if key r = k then g r else 0) + ((rest.filter fun r => key r = k).map g).sum := by
        by_cases hk : key r = k
        · rw [List.filter_cons, if_pos (decide_eq_true hk), List.map_cons, List.sum_cons, if_pos hk]
        · rw [List.filter_cons, if_neg (by simpa using hk), if_neg hk, zero_add]
      rw [List.map_cons, List.sum_cons, ← ih fun s hs => hkeys s (List.mem_cons_of_mem r hs)]
      conv_lhs => rw [List.map_congr_left fun k _ => hsplit k]
      rw [List.sum_map_add, hone]

end Lib
end ERP
