import ERP.Lib.Fifo

/-!
# Drawing in parts

What a draw leaves on the queue, and that drawing `a` and then `b` is drawing
`a + b`, up to the element that both draws touch: the two pieces of it stand next to
each other and `joined` makes them one.
-/

namespace ERP
namespace Lib

variable {α β : Type} {weight : α → ℚ} {queue : List α} {a b q : ℚ}

/-- What a draw leaves on the queue, with what is left of each element. -/
def left (weight : α → ℚ) : List α → ℚ → List (α × ℚ)
  | [], _ => []
  | x :: rest, q =>
    if q ≤ 0 then (x :: rest).map fun y => (y, weight y)
    else if weight x ≤ q then left weight rest (q - weight x)
    else (x, weight x - q) :: rest.map fun y => (y, weight y)

/-- Put a piece in front, together with a first piece of the same element. -/
def joinPiece [DecidableEq α] (e : α × ℚ) : List (α × ℚ) → List (α × ℚ)
  | [] => [e]
  | e' :: rest => if e.1 = e'.1 then (e.1, e.2 + e'.2) :: rest else e :: e' :: rest

/-- Neighbouring pieces of one element, made one. -/
def joined [DecidableEq α] (d : List (α × ℚ)) : List (α × ℚ) := d.foldr joinPiece []

section Joining

variable [DecidableEq α] [DecidableEq β] {d : List (α × ℚ)}

theorem joinPiece_cons (e e' : α × ℚ) (rest : List (α × ℚ)) : joinPiece e (e' :: rest) =
    if e.1 = e'.1 then (e.1, e.2 + e'.2) :: rest else e :: e' :: rest := rfl

theorem joinPiece_of_ne {e : α × ℚ} (h : ∀ e' ∈ d, e.1 ≠ e'.1) : joinPiece e d = e :: d := by
  cases d with
  | nil => rfl
  | cons e' rest => exact if_neg (h e' List.mem_cons_self)

theorem joined_eq_self (h : d.Pairwise fun e e' => e.1 ≠ e'.1) : joined d = d := by
  induction d with
  | nil => rfl
  | cons e rest ih =>
      obtain ⟨hhead, hrest⟩ := List.pairwise_cons.mp h
      show joinPiece e (joined rest) = e :: rest
      rw [ih hrest, joinPiece_of_ne hhead]

/-- Joining keeps every sum over the pieces. -/
theorem sum_joined (f : α → ℚ) (d : List (α × ℚ)) :
    ((joined d).map fun e => e.2 * f e.1).sum = (d.map fun e => e.2 * f e.1).sum := by
  induction d with
  | nil => rfl
  | cons e rest ih =>
      show ((joinPiece e (joined rest)).map fun e => e.2 * f e.1).sum = _
      rw [List.map_cons, List.sum_cons, ← ih]
      cases joined rest with
      | nil => simp [joinPiece]
      | cons e' more =>
          rw [joinPiece_cons]
          by_cases h : e.1 = e'.1
          · rw [if_pos h, List.map_cons, List.map_cons, List.sum_cons, List.sum_cons, ← h]
            ring
          · rw [if_neg h]
            rfl

theorem joinPiece_joinPiece {e e' : α × ℚ} (h : e.1 = e'.1) (d : List (α × ℚ)) :
    joinPiece e (joinPiece e' d) = joinPiece (e.1, e.2 + e'.2) d := by
  cases d with
  | nil => exact if_pos h
  | cons first rest =>
      rw [joinPiece_cons, joinPiece_cons]
      by_cases hfirst : e'.1 = first.1
      · rw [if_pos hfirst, if_pos (h.trans hfirst), joinPiece_cons, if_pos h, add_assoc]
      · rw [if_neg hfirst, if_neg fun heq => hfirst (h.symm.trans heq), joinPiece_cons, if_pos h]

/-- Pieces may be joined in advance. -/
theorem joined_append (d d' : List (α × ℚ)) : joined (joined d ++ d') = joined (d ++ d') := by
  have hfold (e : α × ℚ) (d t : List (α × ℚ)) :
      (joinPiece e d).foldr joinPiece t = joinPiece e (d.foldr joinPiece t) := by
    cases d with
    | nil => rfl
    | cons e' rest =>
        rw [joinPiece_cons]
        by_cases h : e.1 = e'.1
        · rw [if_pos h]
          exact (joinPiece_joinPiece h _).symm
        · rw [if_neg h]
          rfl
  unfold joined
  rw [List.foldr_append, List.foldr_append]
  induction d with
  | nil => rfl
  | cons e rest ih =>
      rw [List.foldr_cons, hfold, ih]
      rfl

/-- The elements of the joined pieces are those of the pieces. -/
theorem mem_joined {e : α × ℚ} (h : e ∈ joined d) : ∃ e' ∈ d, e'.1 = e.1 := by
  induction d generalizing e with
  | nil => exact absurd h List.not_mem_nil
  | cons first rest ih =>
      have hcons : e ∈ joinPiece first (joined rest) := h
      cases hrest : joined rest with
      | nil =>
          rw [hrest] at hcons
          have heq : e = first := List.mem_singleton.mp hcons
          exact ⟨first, List.mem_cons_self, by rw [heq]⟩
      | cons e' more =>
          rw [hrest] at ih hcons
          rw [joinPiece_cons] at hcons
          split at hcons
          · rcases List.mem_cons.mp hcons with heq | hmem
            · exact ⟨first, List.mem_cons_self, by rw [heq]⟩
            · obtain ⟨e'', he'', hsame⟩ := ih (List.mem_cons_of_mem e' hmem)
              exact ⟨e'', List.mem_cons_of_mem first he'', hsame⟩
          · rcases List.mem_cons.mp hcons with heq | hmem
            · exact ⟨first, List.mem_cons_self, by rw [heq]⟩
            · obtain ⟨e'', he'', hsame⟩ := ih hmem
              exact ⟨e'', List.mem_cons_of_mem first he'', hsame⟩

/-- Joining commutes with renaming the elements, when no two get one name. -/
theorem joined_map {f : α → β} (h : ∀ e ∈ d, ∀ e' ∈ d, f e.1 = f e'.1 → e.1 = e'.1) :
    joined (d.map fun e => (f e.1, e.2)) = (joined d).map fun e => (f e.1, e.2) := by
  induction d with
  | nil => rfl
  | cons e rest ih =>
      have hrest := ih fun x hx y hy => h x (List.mem_cons_of_mem e hx) y
        (List.mem_cons_of_mem e hy)
      show joinPiece (f e.1, e.2) (joined (rest.map fun e => (f e.1, e.2))) =
        (joinPiece e (joined rest)).map fun e => (f e.1, e.2)
      rw [hrest]
      cases hjoined : joined rest with
      | nil => rfl
      | cons e' more =>
          obtain ⟨e'', he'', hsame⟩ := mem_joined (d := rest) (e := e')
            (by rw [hjoined]; exact List.mem_cons_self)
          rw [List.map_cons, joinPiece_cons, joinPiece_cons]
          by_cases heq : e.1 = e'.1
          · rw [if_pos heq, if_pos (congrArg f heq)]
            rfl
          · rw [if_neg heq, if_neg fun hf => heq ?_]
            · rfl
            · rw [← hsame] at hf ⊢
              exact h e List.mem_cons_self e'' (List.mem_cons_of_mem e he'') hf

end Joining

theorem draw_of_nonpos (hq : q ≤ 0) : draw weight queue q = [] := by
  cases queue with
  | nil => rfl
  | cons x rest =>
      unfold draw
      exact if_pos hq

theorem left_of_nonpos (hq : q ≤ 0) : left weight queue q = queue.map fun x => (x, weight x) := by
  cases queue with
  | nil => rfl
  | cons x rest =>
      unfold left
      exact if_pos hq

theorem draw_cons (x : α) (rest : List α) (hq : 0 < q) : draw weight (x :: rest) q =
    (x, min (weight x) q) :: draw weight rest (q - min (weight x) q) := by
  rw [draw]
  exact if_neg (not_le.mpr hq)

theorem left_cons_of_le {x : α} (rest : List α) (hq : 0 < q) (h : weight x ≤ q) :
    left weight (x :: rest) q = left weight rest (q - weight x) := by
  rw [left, if_neg (not_le.mpr hq)]
  exact if_pos h

theorem left_cons_of_lt {x : α} (rest : List α) (hq : 0 < q) (h : q < weight x) :
    left weight (x :: rest) q = (x, weight x - q) :: rest.map fun y => (y, weight y) := by
  rw [left, if_neg (not_le.mpr hq)]
  exact if_neg (not_le.mpr h)

theorem mem_of_mem_left {e : α × ℚ} (h : e ∈ left weight queue q) : e.1 ∈ queue := by
  induction queue generalizing q with
  | nil => exact absurd h List.not_mem_nil
  | cons x rest ih =>
      rw [left] at h
      split at h
      · obtain ⟨y, hy, rfl⟩ := List.mem_map.mp h
        exact hy
      · split at h
        · exact List.mem_cons_of_mem x (ih h)
        · rcases List.mem_cons.mp h with rfl | h
          · exact List.mem_cons_self
          · obtain ⟨y, hy, rfl⟩ := List.mem_map.mp h
            exact List.mem_cons_of_mem x hy

/-- Of an element on the queue something is left. -/
theorem left_pos (hpos : ∀ x ∈ queue, 0 < weight x) {e : α × ℚ} (h : e ∈ left weight queue q) :
    0 < e.2 := by
  induction queue generalizing q with
  | nil => exact absurd h List.not_mem_nil
  | cons x rest ih =>
      have hrest : ∀ y ∈ rest, 0 < weight y := fun y hy => hpos y (List.mem_cons_of_mem x hy)
      rw [left] at h
      split at h
      · obtain ⟨y, hy, rfl⟩ := List.mem_map.mp h
        exact hpos y hy
      · split at h
        · exact ih hrest h
        · rcases List.mem_cons.mp h with rfl | h
          · show 0 < weight x - q
            linarith
          · obtain ⟨y, hy, rfl⟩ := List.mem_map.mp h
            exact hrest y hy

/-- What a draw leaves on the queue altogether. -/
theorem sum_left (hpos : ∀ x ∈ queue, 0 < weight x) (hq : 0 ≤ q)
    (hcover : q ≤ (queue.map weight).sum) :
    ((left weight queue q).map (·.2)).sum = (queue.map weight).sum - q := by
  induction queue generalizing q with
  | nil =>
      have hzero : q = 0 := le_antisymm hcover hq
      rw [hzero, sub_zero]
      rfl
  | cons x rest ih =>
      have hwhole (xs : List α) : ((xs.map fun y => (y, weight y)).map (·.2)).sum =
          (xs.map weight).sum := by
        rw [List.map_map]
        rfl
      rcases eq_or_lt_of_le hq with rfl | hq
      · rw [left_of_nonpos (le_refl 0), hwhole, sub_zero]
      · rw [List.map_cons, List.sum_cons] at hcover ⊢
        rcases le_or_gt (weight x) q with hle | hlt
        · rw [left_cons_of_le rest hq hle,
            ih (fun y hy => hpos y (List.mem_cons_of_mem x hy)) (by linarith) (by linarith)]
          ring
        · rw [left_cons_of_lt rest hq hlt, List.map_cons, List.sum_cons, hwhole]
          ring

/-- A draw on renamed elements. -/
theorem draw_map (f : β → α) (xs : List β) (q : ℚ) :
    draw weight (xs.map f) q = (draw (fun x => weight (f x)) xs q).map fun e => (f e.1, e.2) := by
  induction xs generalizing q with
  | nil => rfl
  | cons x rest ih =>
      rw [List.map_cons]
      unfold draw
      split
      · rfl
      · rw [ih]
        rfl

theorem draw_pairwise {R : α → α → Prop} (h : queue.Pairwise R) :
    (draw weight queue q).Pairwise fun e e' => R e.1 e'.1 := by
  induction queue generalizing q with
  | nil => exact .nil
  | cons x rest ih =>
      obtain ⟨hhead, hrest⟩ := List.pairwise_cons.mp h
      unfold draw
      split
      · exact .nil
      · exact List.pairwise_cons.mpr ⟨fun e he => hhead e.1 (mem_of_mem_draw he), ih hrest⟩

/-- What is taken of an element is a positive part of what it weighs. -/
theorem part_of_mem_draw (hpos : ∀ x ∈ queue, 0 < weight x) {e : α × ℚ}
    (he : e ∈ draw weight queue q) : 0 < e.2 ∧ e.2 ≤ weight e.1 := by
  induction queue generalizing q with
  | nil => exact absurd he List.not_mem_nil
  | cons x rest ih =>
      rcases le_or_gt q 0 with hq | hq
      · rw [draw_of_nonpos hq] at he
        exact absurd he List.not_mem_nil
      · rw [draw_cons x rest hq] at he
        rcases List.mem_cons.mp he with rfl | he
        · exact ⟨lt_min (hpos x List.mem_cons_self) hq, min_le_left _ _⟩
        · exact ih (fun y hy => hpos y (List.mem_cons_of_mem x hy)) he

theorem pos_of_mem_draw (hpos : ∀ x ∈ queue, 0 < weight x) {e : α × ℚ}
    (he : e ∈ draw weight queue q) : 0 < e.2 :=
  (part_of_mem_draw hpos he).1

/-- A draw empties the front of the queue, takes a part of one element, and does not
touch those behind it. -/
theorem draw_split (hpos : ∀ x ∈ queue, 0 < weight x) (hq : 0 < q)
    (hcover : q ≤ (queue.map weight).sum) :
    ∃ done last later part, queue = done ++ last :: later ∧ 0 < part ∧ part ≤ weight last ∧
      draw weight queue q = (done.map fun x => (x, weight x)) ++ [(last, part)] ∧
      (done.map weight).sum + part = q := by
  induction queue generalizing q with
  | nil =>
      rw [List.map_nil, List.sum_nil] at hcover
      linarith
  | cons x rest ih =>
      have hx := hpos x List.mem_cons_self
      rw [List.map_cons, List.sum_cons] at hcover
      unfold draw
      rw [if_neg (not_le.mpr hq)]
      rcases lt_or_ge (weight x) q with hlt | hge
      · rw [min_eq_left (le_of_lt hlt)]
        obtain ⟨done, last, later, part, hqueue, hpart, hle, hdraw, hsum⟩ :=
          ih (fun y hy => hpos y (List.mem_cons_of_mem x hy)) (q := q - weight x) (by linarith)
            (by linarith)
        refine ⟨x :: done, last, later, part, by rw [hqueue]; rfl, hpart, hle, ?_, ?_⟩
        · rw [hdraw]
          rfl
        · rw [List.map_cons, List.sum_cons]
          linarith
      · rw [min_eq_right hge, sub_self, draw_of_nonpos (le_refl 0)]
        exact ⟨[], x, rest, q, rfl, hq, hge, rfl, by simp⟩

/-- A draw of everything takes everything. -/
theorem draw_sum (hpos : ∀ x ∈ queue, 0 < weight x) :
    draw weight queue (queue.map weight).sum = queue.map fun x => (x, weight x) := by
  induction queue with
  | nil => rfl
  | cons x rest ih =>
      have hx := hpos x List.mem_cons_self
      have hrest : ∀ y ∈ rest, 0 < weight y := fun y hy => hpos y (List.mem_cons_of_mem x hy)
      have hnonneg : 0 ≤ (rest.map weight).sum := by
        refine List.sum_nonneg fun w hw => ?_
        obtain ⟨y, hy, rfl⟩ := List.mem_map.mp hw
        exact le_of_lt (hrest y hy)
      rw [List.map_cons, List.sum_cons, draw_cons x rest (by linarith), min_eq_left (by linarith),
        add_sub_cancel_left, ih hrest]
      rfl

/-- Drawing `a` and then `b` from what is left is drawing `a + b`. -/
theorem joined_draw_left [DecidableEq α] (hpos : ∀ x ∈ queue, 0 < weight x) (hnodup : queue.Nodup)
    (ha : 0 ≤ a) (hb : 0 ≤ b) :
    joined (draw weight queue a ++
      (draw (fun e : α × ℚ => e.2) (left weight queue a) b).map fun e => (e.1.1, e.2)) =
      draw weight queue (a + b) := by
  -- a draw on the whole queue is joined already
  have hwhole (xs : List α) (hxs : xs.Nodup) (q : ℚ) :
      joined ((draw (fun e : α × ℚ => e.2) (xs.map fun y => (y, weight y)) q).map
        fun e => (e.1.1, e.2)) = draw weight xs q := by
    rw [draw_map, List.map_map]
    exact (congrArg joined (List.map_id _)).trans (joined_eq_self (draw_pairwise hxs))
  induction queue generalizing a with
  | nil => rfl
  | cons x rest ih =>
      obtain ⟨hhead, hrest⟩ := List.nodup_cons.mp hnodup
      have hx := hpos x List.mem_cons_self
      have hpos' : ∀ y ∈ rest, 0 < weight y := fun y hy => hpos y (List.mem_cons_of_mem x hy)
      rcases eq_or_lt_of_le ha with rfl | ha
      · rw [draw_of_nonpos (le_refl 0), left_of_nonpos (le_refl 0), zero_add, List.nil_append]
        exact hwhole (x :: rest) hnodup b
      have hne (q : ℚ) : ∀ e ∈ draw weight rest q, x ≠ e.1 :=
        fun e he heq => hhead (heq ▸ mem_of_mem_draw he)
      rcases le_or_gt (weight x) a with hle | hlt
      · have htail := ih hpos' hrest (a := a - weight x) (by linarith)
        rw [draw_cons x rest ha, left_cons_of_le rest ha hle, min_eq_left hle,
          draw_cons x rest (by linarith), min_eq_left (by linarith)]
        show joinPiece (x, weight x) (joined (_ ++ _)) = _
        rw [htail, joinPiece_of_ne (hne _)]
        congr 2
        ring
      · rw [draw_cons x rest ha, left_cons_of_lt rest ha hlt, min_eq_right (le_of_lt hlt), sub_self,
          draw_of_nonpos (le_refl 0), draw_cons x rest (by linarith)]
        rcases eq_or_lt_of_le hb with rfl | hb
        · rw [draw_of_nonpos (le_refl 0), add_zero, min_eq_right (le_of_lt hlt), sub_self,
            draw_of_nonpos (le_refl 0)]
          rfl
        · rw [draw_cons _ _ hb, List.map_cons]
          show joinPiece (x, a) (joinPiece (x, min (weight x - a) b) (joined _)) = _
          have hinner : joinPiece (x, min (weight x - a) b)
              (draw weight rest (b - min (weight x - a) b)) =
                (x, min (weight x - a) b) :: draw weight rest (b - min (weight x - a) b) :=
            joinPiece_of_ne (hne _)
          rw [hwhole rest hrest, hinner, joinPiece_cons, if_pos rfl]
          have hmin : min (weight x) (a + b) = a + min (weight x - a) b := by
            rw [← min_add_add_left]
            congr 1
            ring
          rw [hmin]
          congr 2
          ring

section Keys

variable {key : α → Nat} {x y : α} {rest : List α}

theorem drawnFrom_cons (k : Nat) (e : α × ℚ) (d : List (α × ℚ)) :
    drawnFrom key k (e :: d) = (if key e.1 = k then e.2 else 0) + drawnFrom key k d := by
  simp [drawnFrom]

/-- What a draw takes of the first element. -/
theorem drawnFrom_head (h : ∀ y ∈ rest, key x ≠ key y) (hq : 0 < q) :
    drawnFrom key (key x) (draw weight (x :: rest) q) = min (weight x) q := by
  have hrest : drawnFrom key (key x) (draw weight rest (q - min (weight x) q)) = 0 :=
    drawnFrom_eq_zero fun e he => (h e.1 (mem_of_mem_draw he)).symm
  rw [draw_cons x rest hq, drawnFrom_cons, if_pos rfl, hrest, add_zero]

/-- What a draw takes of the elements behind the first. -/
theorem drawnFrom_tail (h : key x ≠ key y) (hq : 0 < q) :
    drawnFrom key (key y) (draw weight (x :: rest) q) =
      drawnFrom key (key y) (draw weight rest (q - min (weight x) q)) := by
  rw [draw_cons x rest hq, drawnFrom_cons, if_neg h, zero_add]

/-- What a draw leaves, element by element. -/
theorem left_eq (hpos : ∀ x ∈ queue, 0 < weight x)
    (hkeys : queue.Pairwise fun x y => key x ≠ key y) :
    left weight queue q =
      (queue.filter fun x => 0 < weight x - drawnFrom key (key x) (draw weight queue q)).map
        fun x => (x, weight x - drawnFrom key (key x) (draw weight queue q)) := by
  have hall (xs : List α) (hxs : ∀ x ∈ xs, 0 < weight x) (f : α → ℚ) (hf : ∀ x ∈ xs, f x = 0) :
      (xs.filter fun x => 0 < weight x - f x).map (fun x => (x, weight x - f x)) =
        xs.map fun x => (x, weight x) := by
    have hfilter : (xs.filter fun x => 0 < weight x - f x) = xs := by
      refine List.filter_eq_self.mpr fun x hx => decide_eq_true ?_
      rw [hf x hx, sub_zero]
      exact hxs x hx
    rw [hfilter]
    refine List.map_congr_left fun x hx => ?_
    rw [hf x hx, sub_zero]
  induction queue generalizing q with
  | nil => rfl
  | cons x rest ih =>
      obtain ⟨hhead, hrest⟩ := List.pairwise_cons.mp hkeys
      have hpos' : ∀ y ∈ rest, 0 < weight y := fun y hy => hpos y (List.mem_cons_of_mem x hy)
      rcases le_or_gt q 0 with hq | hq
      · rw [left_of_nonpos hq, draw_of_nonpos hq]
        exact (hall (x :: rest) hpos _ fun _ _ => rfl).symm
      -- behind the first element, the draw is the one that goes on with what is missing
      have htail : ∀ y ∈ rest, drawnFrom key (key y) (draw weight (x :: rest) q) =
          drawnFrom key (key y) (draw weight rest (q - min (weight x) q)) :=
        fun y hy => drawnFrom_tail (hhead y hy) hq
      have hfilter : (rest.filter fun y =>
          0 < weight y - drawnFrom key (key y) (draw weight (x :: rest) q)) =
          rest.filter fun y =>
            0 < weight y - drawnFrom key (key y) (draw weight rest (q - min (weight x) q)) :=
        List.filter_congr fun y hy => by rw [htail y hy]
      have hmap (xs : List α) (hxs : ∀ y ∈ xs, y ∈ rest) : (xs.map fun y =>
          (y, weight y - drawnFrom key (key y) (draw weight (x :: rest) q))) =
          xs.map fun y =>
            (y, weight y - drawnFrom key (key y) (draw weight rest (q - min (weight x) q))) :=
        List.map_congr_left fun y hy => by rw [htail y (hxs y hy)]
      rw [List.filter_cons, drawnFrom_head hhead hq, hfilter]
      rcases le_or_gt (weight x) q with hle | hlt
      · rw [left_cons_of_le rest hq hle, ih hpos' hrest]
        have hnone : ¬ (decide (0 < weight x - min (weight x) q) = true) := by
          rw [min_eq_left hle, sub_self]
          simp
        rw [if_neg hnone, hmap _ fun y hy => (List.mem_filter.mp hy).1, min_eq_left hle]
      · rw [left_cons_of_lt rest hq hlt]
        have hsome : decide (0 < weight x - min (weight x) q) = true := by
          rw [min_eq_right (le_of_lt hlt)]
          exact decide_eq_true (by linarith)
        rw [if_pos hsome, List.map_cons, drawnFrom_head hhead hq,
          hmap _ fun y hy => (List.mem_filter.mp hy).1, min_eq_right (le_of_lt hlt), sub_self,
          draw_of_nonpos (le_refl 0)]
        exact congrArg (List.cons _) (hall rest hpos' (fun y => drawnFrom key (key y) [])
          fun _ _ => rfl).symm

end Keys

end Lib
end ERP
