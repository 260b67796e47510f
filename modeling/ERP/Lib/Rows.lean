import Mathlib.Data.List.Nodup
import Mathlib.Data.List.Perm.Subperm

/-!
# Tables with a primary key

A table is a list of rows in which no key occurs twice.  The statements are those
an ORM sends: look a row up by its key, update the rows that satisfy a condition
and tell how many there were, insert a row unless its key is taken.
-/

namespace ERP
namespace Lib

/-- A table whose rows have distinct keys. -/
@[ext] structure Rows (α : Type) (key : α → Nat) where
  toList : List α
  nodup : (toList.map key).Nodup

namespace Rows

variable {α : Type} {key : α → Nat}

def empty : Rows α key := ⟨[], List.nodup_nil⟩

/-- The row with the given key. -/
def get (t : Rows α key) (k : Nat) : Option α := t.toList.find? fun r => key r = k

/-- The first row that satisfies `p`. -/
def findFirst (t : Rows α key) (p : α → Bool) : Option α := t.toList.find? p

/-- How many rows satisfy `p`. -/
def count (t : Rows α key) (p : α → Bool) : Nat := t.toList.countP p

/-- Change the rows that satisfy `p`; a change leaves the key alone. -/
def updateMany (t : Rows α key) (p : α → Bool) (f : α → α) (hf : ∀ r, key (f r) = key r) :
    Rows α key where
  toList := t.toList.map fun r => if p r then f r else r
  nodup := by
    rw [List.map_map]
    have hkey : (key ∘ fun r => if p r then f r else r) = key := by
      funext r
      show key (if p r then f r else r) = key r
      by_cases hp : p r = true
      · rw [if_pos hp, hf]
      · rw [if_neg hp]
    rw [hkey]
    exact t.nodup

/-- Delete the rows that satisfy `p`. -/
def deleteMany (t : Rows α key) (p : α → Bool) : Rows α key where
  toList := t.toList.filter fun r => !p r
  nodup := t.nodup.sublist (List.filter_sublist.map key)

/-- Insert a row, unless its key is taken. -/
def insert (t : Rows α key) (row : α) : Rows α key :=
  if h : key row ∈ t.toList.map key then t
  else
    { toList := t.toList ++ [row]
      nodup := by
        rw [List.map_append, List.map_singleton]
        exact List.nodup_append.mpr ⟨t.nodup, List.nodup_singleton _, fun a ha b hb hab => by
          rw [List.mem_singleton] at hb
          exact h (hb ▸ hab ▸ ha)⟩ }

theorem mem_updateMany {t : Rows α key} {p : α → Bool} {f : α → α}
    {hf : ∀ r, key (f r) = key r} {r : α} :
    r ∈ (t.updateMany p f hf).toList ↔ ∃ x ∈ t.toList, (if p x then f x else x) = r :=
  List.mem_map

/-- A row that does not meet the condition stays. -/
theorem mem_updateMany_of_not {t : Rows α key} {p : α → Bool} {f : α → α}
    {hf : ∀ r, key (f r) = key r} {r : α} (h : r ∈ t.toList) (hp : ¬ p r = true) :
    r ∈ (t.updateMany p f hf).toList :=
  mem_updateMany.mpr ⟨r, h, if_neg hp⟩

theorem mem_deleteMany {t : Rows α key} {p : α → Bool} {r : α} :
    r ∈ (t.deleteMany p).toList ↔ r ∈ t.toList ∧ p r = false := by
  show r ∈ t.toList.filter (fun r => !p r) ↔ _
  rw [List.mem_filter, Bool.not_eq_true']

theorem mem_insert {t : Rows α key} {row r : α} (h : r ∈ (t.insert row).toList) :
    r ∈ t.toList ∨ r = row := by
  by_cases hkey : key row ∈ t.toList.map key
  · rw [insert, dif_pos hkey] at h
    exact .inl h
  · rw [insert, dif_neg hkey] at h
    simpa using h

theorem mem_insert_of_mem {t : Rows α key} {r : α} (h : r ∈ t.toList) (row : α) :
    r ∈ (t.insert row).toList := by
  by_cases hkey : key row ∈ t.toList.map key
  · rw [insert, dif_pos hkey]
    exact h
  · rw [insert, dif_neg hkey]
    exact List.mem_append_left _ h

theorem mem_of_get {t : Rows α key} {k : Nat} {r : α} (h : t.get k = some r) : r ∈ t.toList :=
  List.mem_of_find?_eq_some h

theorem key_of_get {t : Rows α key} {k : Nat} {r : α} (h : t.get k = some r) : key r = k := by
  simpa using List.find?_some h

theorem mem_of_findFirst {t : Rows α key} {p : α → Bool} {r : α} (h : t.findFirst p = some r) :
    r ∈ t.toList := List.mem_of_find?_eq_some h

theorem sat_of_findFirst {t : Rows α key} {p : α → Bool} {r : α} (h : t.findFirst p = some r) :
    p r = true := by
  have hr := List.find?_some h
  exact hr

theorem get_of_mem {t : Rows α key} {r : α} (hr : r ∈ t.toList) : t.get (key r) = some r := by
  have hsome : (t.toList.find? fun s => key s = key r).isSome :=
    List.find?_isSome.mpr ⟨r, hr, by simp⟩
  obtain ⟨s, hs⟩ := Option.isSome_iff_exists.mp hsome
  have hkey : key s = key r := by simpa using List.find?_some hs
  have heq : s = r :=
    List.inj_on_of_nodup_map t.nodup (List.mem_of_find?_eq_some hs) hr hkey
  show (t.toList.find? fun s => key s = key r) = some r
  rw [hs, heq]

/-- A row that no deleted row shares the key with stays. -/
theorem get_deleteMany_of_ne {t : Rows α key} {p : α → Bool} {k : Nat}
    (hp : ∀ r, p r = true → key r ≠ k) : (t.deleteMany p).get k = t.get k := by
  show (t.toList.filter fun r => !p r).find? (fun r => key r = k) =
    t.toList.find? fun r => key r = k
  rw [List.find?_filter]
  congr 1
  funext r
  by_cases hk : key r = k
  · have hr : p r = false := Bool.eq_false_iff.mpr fun h => hp r h hk
    simp [hk, hr]
  · simp [hk]

/-- A condition that only the key `k` meets finds the row with that key. -/
theorem findFirst_of_get {t : Rows α key} {p : α → Bool} {k : Nat} {r : α}
    (hget : t.get k = some r) (hr : p r = true) (hp : ∀ s, p s = true → key s = k) :
    t.findFirst p = some r := by
  have hsome : (t.toList.find? p).isSome := List.find?_isSome.mpr ⟨r, mem_of_get hget, hr⟩
  obtain ⟨s, hs⟩ := Option.isSome_iff_exists.mp hsome
  have hgets := get_of_mem (List.mem_of_find?_eq_some hs)
  rw [hp s (List.find?_some hs), hget] at hgets
  show t.toList.find? p = some r
  rw [hs, hgets]

theorem get_eq_none_iff {t : Rows α key} {k : Nat} :
    t.get k = none ↔ k ∉ t.toList.map key := by
  show (t.toList.find? fun r => key r = k) = none ↔ _
  simp only [List.find?_eq_none, decide_eq_true_eq, List.mem_map, not_exists, not_and]

@[simp] theorem get_updateMany (t : Rows α key) (p : α → Bool) (f : α → α)
    (hf : ∀ r, key (f r) = key r) (k : Nat) :
    (t.updateMany p f hf).get k = (t.get k).map fun r => if p r then f r else r := by
  show ((t.toList.map fun r => if p r then f r else r).find? fun r => key r = k) =
    (t.toList.find? fun r => key r = k).map fun r => if p r then f r else r
  rw [List.find?_map]
  congr 2
  funext r
  show decide (key (if p r then f r else r) = k) = decide (key r = k)
  by_cases hp : p r = true
  · rw [if_pos hp, hf]
  · rw [if_neg hp]

/-- An update that only the row with key `k` meets changes that row. -/
theorem get_updateMany_of_key {t : Rows α key} {p : α → Bool} {f : α → α}
    (hf : ∀ r, key (f r) = key r) {row : α} {k : Nat} (hget : t.get k = some row)
    (hrow : p row = true) (hp : ∀ r, p r = true → key r = k) (j : Nat) :
    (t.updateMany p f hf).get j = if j = k then some (f row) else t.get j := by
  rw [get_updateMany]
  by_cases hj : j = k
  · rw [if_pos hj, hj, hget, Option.map_some, if_pos hrow]
  · rw [if_neg hj]
    cases hr : t.get j with
    | none => rfl
    | some r =>
        have hnot : ¬ p r = true := fun h => hj ((key_of_get hr).symm.trans (hp r h))
        rw [Option.map_some, if_neg hnot]

/-- An update that no row meets changes nothing. -/
theorem updateMany_eq_self {t : Rows α key} {p : α → Bool} {f : α → α}
    (hf : ∀ r, key (f r) = key r) (h : t.count p = 0) : t.updateMany p f hf = t := by
  apply Rows.ext
  show (t.toList.map fun r => if p r then f r else r) = t.toList
  conv_rhs => rw [← List.map_id t.toList]
  refine List.map_congr_left fun r hr => ?_
  have hp : ¬ p r = true := List.countP_eq_zero.mp h r hr
  rw [if_neg hp]
  rfl

theorem get_insert_of_some {t : Rows α key} {row r : α} (h : t.get (key row) = some r) :
    t.insert row = t := by
  have hmem : key row ∈ t.toList.map key := by
    rw [← key_of_get h]
    exact List.mem_map_of_mem (mem_of_get h)
  exact dif_pos hmem

theorem get_insert_of_none {t : Rows α key} {row : α} (h : t.get (key row) = none) (k : Nat) :
    (t.insert row).get k = if key row = k then some row else t.get k := by
  have hnot : key row ∉ t.toList.map key := get_eq_none_iff.mp h
  rw [insert, dif_neg hnot]
  show (t.toList ++ [row]).find? (fun r => key r = k) = _
  rw [List.find?_append]
  by_cases hk : key row = k
  · rw [if_pos hk]
    have hnone : t.toList.find? (fun r => key r = k) = none := hk ▸ h
    rw [hnone]
    simp [hk]
  · rw [if_neg hk]
    simp only [List.find?_cons, List.find?_nil, decide_eq_false hk, Option.or_none]
    rfl

/-- An insertion leaves the rows that are there. -/
theorem get_insert_of_get {t : Rows α key} {r : α} {k : Nat} (h : t.get k = some r) (row : α) :
    (t.insert row).get k = some r := by
  cases hrow : t.get (key row) with
  | some found =>
      rw [get_insert_of_some hrow]
      exact h
  | none =>
      rw [get_insert_of_none hrow, if_neg]
      · exact h
      · rintro rfl
        rw [hrow] at h
        cases h

/-- As many rows as keys they can have: each of the keys is one of theirs. -/
theorem exists_of_length {t : Rows α key} {p : α → Bool} {keys : List Nat}
    (hp : ∀ r, p r = true → key r ∈ keys)
    (hlen : (t.toList.filter p).length = keys.length) {k : Nat} (hk : k ∈ keys) :
    ∃ r ∈ t.toList, p r = true ∧ key r = k := by
  have hnodup : ((t.toList.filter p).map key).Nodup :=
    t.nodup.sublist (List.filter_sublist.map key)
  have hsub : (t.toList.filter p).map key ⊆ keys := by
    intro j hj
    obtain ⟨r, hr, rfl⟩ := List.mem_map.mp hj
    exact hp r (List.mem_filter.mp hr).2
  have hle : keys.length ≤ ((t.toList.filter p).map key).length := by
    rw [List.length_map]
    omega
  have hperm := (hnodup.subperm hsub).perm_of_length_le hle
  obtain ⟨r, hr, hrk⟩ := List.mem_map.mp (hperm.mem_iff.mpr hk)
  exact ⟨r, (List.mem_filter.mp hr).1, (List.mem_filter.mp hr).2, hrk⟩

/-- A row that satisfies `p`, when no row with another key does. -/
theorem filter_eq_singleton {t : Rows α key} {p : α → Bool} {row : α} (hrow : row ∈ t.toList)
    (hsat : p row = true) (hp : ∀ r ∈ t.toList, p r = true → key r = key row) :
    t.toList.filter p = [row] := by
  have hall : ∀ r ∈ t.toList.filter p, r = row := by
    intro r hr
    obtain ⟨hmem, hr⟩ := List.mem_filter.mp hr
    have hget := get_of_mem hmem
    rw [hp r hmem hr, get_of_mem hrow] at hget
    exact (Option.some.inj hget).symm
  have hrep := List.eq_replicate_of_mem hall
  have hnodup : ((t.toList.filter p).map key).Nodup :=
    t.nodup.sublist (List.filter_sublist.map key)
  have hle : (t.toList.filter p).length ≤ 1 := by
    rw [hrep, List.map_replicate, List.nodup_replicate] at hnodup
    exact hnodup
  have hpos : 0 < (t.toList.filter p).length :=
    List.length_pos_of_mem (List.mem_filter.mpr ⟨hrow, hsat⟩)
  have hone : (t.toList.filter p).length = 1 := by omega
  rw [hrep, hone]
  rfl

/-- A condition that only one key meets is met by that row or by none. -/
theorem count_of_key (t : Rows α key) {p : α → Bool} {k : Nat}
    (hp : ∀ r, p r = true → key r = k) :
    t.count p = if (t.get k).any p then 1 else 0 := by
  obtain ⟨rows, hnodup⟩ := t
  show rows.countP p = if (rows.find? fun r => key r = k).any p then 1 else 0
  induction rows with
  | nil => rfl
  | cons r rest ih =>
      rw [List.map_cons, List.nodup_cons] at hnodup
      have ihr := ih hnodup.2
      by_cases hk : key r = k
      · have hrest : rest.countP p = 0 := by
          rw [List.countP_eq_zero]
          intro s hs hps
          have hkey : key r = key s := hk.trans (hp s hps).symm
          exact hnodup.1 (hkey ▸ List.mem_map_of_mem hs)
        rw [List.countP_cons, hrest]
        simp [hk]
      · have hpr : ¬ p r = true := fun h => hk (hp r h)
        rw [List.countP_cons_of_neg hpr, ihr]
        simp [hk]

end Rows

end Lib
end ERP
