import ERP.Lib.Sorting

/-!
# Pages by key

A query returns the rows behind a key, in the order of their keys, and at most so
many; the client asks again behind the key of the last row it got, until a page is
not full.  When the keys are distinct it gets every row once.
-/

namespace ERP
namespace Lib
namespace Keyset

variable {α β κ : Type} [LinearOrder κ]

/-- The first rows behind the cursor, or the first rows. -/
def page (key : α → κ) (rows : List α) (cursor : Option κ) (take : Nat) : List α :=
  (orderBy key (rows.filter fun r => cursor.all fun k => k < key r)).take take

/-- The loop of the client, for so many pages; `none` when it is not done by then. -/
def readAll (fetchPage : Option κ → List β) (cursorOf : β → κ) (pageSize : Nat) :
    Nat → Option κ → Option (List β)
  | 0, _ => none
  | fuel + 1, cursor =>
      let page := fetchPage cursor
      if page.length < pageSize then some page
      else
        match page.getLast? with
        | none => some page
        | some last =>
            (readAll fetchPage cursorOf pageSize fuel (some (cursorOf last))).map (page ++ ·)

variable {key : α → κ} {rows : List α}

/-- Distinct keys ascend strictly. -/
theorem orderBy_strict (h : (rows.map key).Nodup) :
    (orderBy key rows).Pairwise fun a b => key a < key b := by
  have hsorted := orderBy_sorted key rows
  have hnodup : ((orderBy key rows).map key).Nodup :=
    ((orderBy_perm key rows).map key).nodup_iff.mpr h
  have hdistinct : (orderBy key rows).Pairwise fun a b => key a ≠ key b :=
    List.pairwise_map.mp hnodup
  exact hsorted.imp₂ (fun _ _ hle hne => lt_of_le_of_ne hle hne) hdistinct

/-- Behind the last row of a page come the rows that were not in it. -/
theorem filter_behind {sorted front behind : List α} {last : α}
    (h : sorted.Pairwise fun a b => key a < key b) (hsplit : sorted = (front ++ [last]) ++ behind) :
    sorted.filter (fun r => key last < key r) = behind := by
  rw [hsplit] at h ⊢
  obtain ⟨hfront, -, hcross⟩ := List.pairwise_append.mp h
  obtain ⟨-, -, hlast⟩ := List.pairwise_append.mp hfront
  rw [List.filter_append]
  have hnone : (front ++ [last]).filter (fun r => key last < key r) = [] := by
    refine List.filter_eq_nil_iff.mpr fun r hr hlt => ?_
    have hlt := of_decide_eq_true hlt
    rcases List.mem_append.mp hr with hr | hr
    · exact lt_asymm hlt (hlast r hr last (List.mem_singleton_self last))
    · rw [List.mem_singleton.mp hr] at hlt
      exact lt_irrefl _ hlt
  have hall : behind.filter (fun r => key last < key r) = behind :=
    List.filter_eq_self.mpr fun r hr => decide_eq_true (hcross last (by simp) r hr)
  rw [hnone, hall, List.nil_append]

/-- What comes behind a cursor, in order. -/
def behind (key : α → κ) (rows : List α) (cursor : Option κ) : List α :=
  (orderBy key rows).filter fun r => cursor.all fun k => k < key r

theorem page_eq (rows : List α) (cursor : Option κ) (take : Nat) :
    page key rows cursor take = (behind key rows cursor).take take := by
  unfold page behind
  rw [orderBy_filter]

/-- The loop ends with the first page that is not full, and has then read every row
behind the cursor, in order. -/
theorem readAll_eq {pageSize : Nat} (hpos : 0 < pageSize) (hkeys : (rows.map key).Nodup)
    {f : α → β} {cursorOf : β → κ} (hcursor : ∀ r, cursorOf (f r) = key r) (fuel : Nat)
    (cursor : Option κ) (hfuel : (behind key rows cursor).length / pageSize < fuel) :
    readAll (fun c => (page key rows c pageSize).map f) cursorOf pageSize fuel cursor =
      some ((behind key rows cursor).map f) := by
  induction fuel generalizing cursor with
  | zero => exact absurd hfuel (Nat.not_lt_zero _)
  | succ fuel ih =>
      unfold readAll
      rw [page_eq]
      dsimp only
      by_cases hfull : ((behind key rows cursor).take pageSize).length < pageSize
      · -- a page that is not full is the last
        have hall : (behind key rows cursor).take pageSize = behind key rows cursor := by
          rw [List.length_take] at hfull
          exact List.take_of_length_le (by omega)
        rw [List.length_map, if_pos hfull, hall]
      · rw [List.length_map, if_neg hfull]
        have hsome : (behind key rows cursor).take pageSize ≠ [] := by
          intro hnil
          rw [hnil] at hfull
          exact hfull hpos
        have hparts : behind key rows cursor =
            (((behind key rows cursor).take pageSize).dropLast ++
              [((behind key rows cursor).take pageSize).getLast hsome]) ++
            (behind key rows cursor).drop pageSize := by
          rw [List.dropLast_append_getLast, List.take_append_drop]
        generalize ((behind key rows cursor).take pageSize).getLast hsome = last at hparts
        have hmem : last ∈ behind key rows cursor := by
          rw [hparts]
          simp
        -- what comes behind the last row comes behind the cursor
        have hnext : behind key rows (some (key last)) =
            (behind key rows cursor).drop pageSize := by
          have hstrict := (orderBy_strict hkeys).filter fun r => cursor.all fun k => k < key r
          have hrest := filter_behind hstrict hparts
          rw [← hrest]
          unfold behind
          rw [List.filter_filter]
          refine List.filter_congr fun r _ => ?_
          have hlast := (List.mem_filter.mp hmem).2
          cases cursor with
          | none => simp
          | some k =>
              have hk : k < key last := by simpa using hlast
              by_cases hr : key last < key r
              · simp [hr, hk.trans hr]
              · simp [hr]
        have hgetLast : (((behind key rows cursor).take pageSize).map f).getLast? =
            some (f last) := by
          have htake : (behind key rows cursor).take pageSize =
              ((behind key rows cursor).take pageSize).dropLast ++ [last] := by
            have hdrop := List.take_append_drop pageSize (behind key rows cursor)
            exact List.append_cancel_right (hdrop.trans hparts)
          rw [htake, List.map_append, List.map_singleton, List.getLast?_concat]
        rw [hgetLast]
        dsimp only
        rw [hcursor, ih]
        · rw [Option.map_some, hnext, ← List.map_append, List.take_append_drop]
        · rw [hnext, List.length_drop]
          rw [not_lt, List.length_take] at hfull
          have hle : pageSize ≤ (behind key rows cursor).length := by omega
          rw [Nat.div_eq_sub_div hpos hle] at hfuel
          omega

end Keyset
end Lib
end ERP
