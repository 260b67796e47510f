import ERP.Lib.Table

/-!
# Tables that grow

Between two states of a table a row may be changed within bounds, rows are added behind
those there were, and none goes.
-/

namespace ERP
namespace Lib

variable {α : Type} {same : α → α → Prop} {rows rows' rows'' : List α}

/-- Each row of the table stands where it stood, and is the same in the sense of `same`. -/
def Grown (same : α → α → Prop) (rows rows' : List α) : Prop :=
  ∃ f added, (∀ r ∈ rows, same r (f r)) ∧ rows' = rows.map f ++ added

namespace Grown

theorem refl (hrefl : ∀ r, same r r) : Grown same rows rows :=
  ⟨id, [], fun r _ => hrefl r, by rw [List.map_id, List.append_nil]⟩

theorem of_eq (hrefl : ∀ r, same r r) (h : rows' = rows) : Grown same rows rows' :=
  h ▸ refl hrefl

theorem of_map {f : α → α} (hf : ∀ r ∈ rows, same r (f r)) (h : rows' = rows.map f) :
    Grown same rows rows' :=
  ⟨f, [], hf, by rw [h, List.append_nil]⟩

theorem of_append {added : List α} (hrefl : ∀ r, same r r) (h : rows' = rows ++ added) :
    Grown same rows rows' :=
  ⟨id, added, fun r _ => hrefl r, by rw [List.map_id, h]⟩

theorem trans (htrans : ∀ r s t, same r s → same s t → same r t) (h : Grown same rows rows')
    (h' : Grown same rows' rows'') : Grown same rows rows'' := by
  obtain ⟨f, added, hf, rfl⟩ := h
  obtain ⟨g, more, hg, rfl⟩ := h'
  refine ⟨fun r => g (f r), added.map g ++ more, fun r hr => ?_, ?_⟩
  · exact htrans _ _ _ (hf r hr)
      (hg (f r) (List.mem_append_left _ (List.mem_map.mpr ⟨r, hr, rfl⟩)))
  · rw [List.map_append, List.map_map, List.append_assoc]
    rfl

/-- A row that was there is there still, in what it has become. -/
theorem mem (h : Grown same rows rows') {r : α} (hr : r ∈ rows) : ∃ s ∈ rows', same r s := by
  obtain ⟨f, added, hf, rfl⟩ := h
  exact ⟨f r, List.mem_append_left added (List.mem_map.mpr ⟨r, hr, rfl⟩), hf r hr⟩

/-- A row found by what does not change of it is found still. -/
theorem find?_of_same {p : α → Bool} (hp : ∀ r s, same r s → p s = p r)
    (h : Grown same rows rows') {r : α} (hr : rows.find? p = some r) :
    ∃ s, rows'.find? p = some s ∧ same r s := by
  obtain ⟨f, added, hf, rfl⟩ := h
  have hmem := List.mem_of_find?_eq_some hr
  have hsame : rows.find? (p ∘ f) = rows.find? p := by
    clear hr hmem
    induction rows with
    | nil => rfl
    | cons x rest ih =>
        have hx : p (f x) = p x := hp x (f x) (hf x List.mem_cons_self)
        rw [List.find?_cons, List.find?_cons, ih fun y hy => hf y (List.mem_cons_of_mem x hy)]
        simp only [Function.comp, hx]
  refine ⟨f r, ?_, hf r hmem⟩
  rw [List.find?_append, List.find?_map, hsame, hr]
  rfl

/-- A row found under its key is found there still. -/
theorem find? (key : α → Nat) (hkey : ∀ r s, same r s → key s = key r)
    (h : Grown same rows rows') {k : Nat} {r : α} (hr : rows.find? (fun r => key r = k) = some r) :
    ∃ s, rows'.find? (fun r => key r = k) = some s ∧ same r s :=
  h.find?_of_same (fun r s hrs => by rw [hkey r s hrs]) hr

end Grown

end Lib
end ERP
