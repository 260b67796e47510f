import Mathlib.Data.List.Basic
import Mathlib.Data.List.Infix

/-!
# Paths

The POSIX reading of a path: a list of segments between slashes, of which the
empty one and `.` stay where they are and `..` goes up, never above the root.

Where a walk ends depends on its start only through how far it climbs: `climb`
gives the number of directories a list of segments leaves and the names it then
descends, and `walk_eq` says that this is all there is to know.
-/

namespace ERP
namespace Lib

abbrev Segment := List Char

namespace Path

variable {dir parts names : List Segment} {s : Segment} {text : List Char}

/-- The segments of a text that are not empty. -/
def segments (text : List Char) : List Segment := (text.splitOn '/').filter (· ≠ [])

def isStay (s : Segment) : Prop := s = [] ∨ s = ['.']

instance : DecidablePred isStay := fun s => inferInstanceAs (Decidable (s = [] ∨ s = ['.']))

def up : Segment := ['.', '.']

/-- The directory reached from `dir` by one segment. -/
def enter (dir : List Segment) (s : Segment) : List Segment :=
  if isStay s then dir else if s = up then dir.dropLast else dir ++ [s]

/-- The directory reached from `dir` by a list of segments. -/
def walk (dir parts : List Segment) : List Segment := parts.foldl enter dir

/-- One more segment after climbing `c.1` directories and descending `c.2`. -/
def climbStep (c : Nat × List Segment) (s : Segment) : Nat × List Segment :=
  if isStay s then c
  else if s = up then (if c.2 = [] then (c.1 + 1, []) else (c.1, c.2.dropLast))
  else (c.1, c.2 ++ [s])

/-- How many directories a list of segments leaves, and the names it descends. -/
def climb (parts : List Segment) : Nat × List Segment := parts.foldl climbStep (0, [])

/-- The text of an absolute path. -/
def render (dir : List Segment) : List Char :=
  if dir = [] then ['/'] else ['/'].intercalate ([] :: dir)

/-- The directory a climb ends in. -/
def landing (dir : List Segment) (c : Nat × List Segment) : List Segment :=
  dir.take (dir.length - c.1) ++ c.2

theorem enter_landing (dir : List Segment) (c : Nat × List Segment) (s : Segment) :
    enter (landing dir c) s = landing dir (climbStep c s) := by
  obtain ⟨u, names⟩ := c
  unfold enter climbStep
  by_cases hstay : isStay s
  · rw [if_pos hstay, if_pos hstay]
  · rw [if_neg hstay, if_neg hstay]
    by_cases hup : s = up
    · rw [if_pos hup, if_pos hup]
      by_cases hnames : names = []
      · subst hnames
        simp only [landing, if_true, List.append_nil]
        have hlength : dir.length - (u + 1) = dir.length - u - 1 := by omega
        rw [hlength, List.dropLast_eq_take, List.length_take, List.take_take]
        congr 1
        omega
      · simp only [landing, hnames, if_false]
        exact List.dropLast_append_of_ne_nil hnames
    · rw [if_neg hup, if_neg hup]
      simp only [landing, List.append_assoc]

/-- A walk climbs out of the end of its start and descends. -/
theorem walk_eq (dir parts : List Segment) : walk dir parts = landing dir (climb parts) := by
  have hgen : ∀ c, walk (landing dir c) parts = landing dir (parts.foldl climbStep c) := by
    induction parts with
    | nil => intro c; rfl
    | cons s rest ih =>
        intro c
        change walk (enter (landing dir c) s) rest = _
        rw [enter_landing]
        exact ih (climbStep c s)
  have hstart : landing dir (0, []) = dir := by simp [landing]
  have := hgen (0, [])
  rw [hstart] at this
  exact this

theorem walk_append (dir parts parts' : List Segment) :
    walk dir (parts ++ parts') = walk (walk dir parts) parts' :=
  List.foldl_append

/-- A segment that names a directory. -/
def isName (s : Segment) : Prop := ¬ isStay s ∧ s ≠ up

instance : DecidablePred isName := fun s => inferInstanceAs (Decidable (¬ isStay s ∧ s ≠ up))

theorem walk_names (h : ∀ s ∈ names, isName s) : walk dir names = dir ++ names := by
  induction names generalizing dir with
  | nil => exact (List.append_nil dir).symm
  | cons s rest ih =>
      obtain ⟨hstay, hup⟩ := h s List.mem_cons_self
      change walk (enter dir s) rest = _
      rw [enter, if_neg hstay, if_neg hup, ih fun x hx => h x (List.mem_cons_of_mem s hx)]
      simp

theorem walk_filter (dir parts : List Segment) :
    walk dir (parts.filter (· ≠ [])) = walk dir parts := by
  induction parts generalizing dir with
  | nil => rfl
  | cons s rest ih =>
      by_cases hs : s = []
      · subst hs
        rw [List.filter_cons_of_neg (by simp)]
        exact ih dir
      · rw [List.filter_cons_of_pos (by simpa using hs)]
        exact ih (enter dir s)

/-- What a climb descends are segments it was given, and names. -/
theorem mem_climb (h : s ∈ (climb parts).2) : s ∈ parts ∧ isName s := by
  have hstep : ∀ (c : Nat × List Segment) (x : Segment), s ∈ (climbStep c x).2 →
      s ∈ c.2 ∨ (s = x ∧ isName s) := by
    intro c x hs
    unfold climbStep at hs
    split at hs
    · exact .inl hs
    · split at hs
      · split at hs
        · exact absurd hs List.not_mem_nil
        · exact .inl (List.mem_of_mem_dropLast hs)
      · rename_i hstay hup
        rcases List.mem_append.mp hs with hs | hs
        · exact .inl hs
        · rw [List.mem_singleton] at hs
          exact .inr ⟨hs, hs ▸ ⟨hstay, hup⟩⟩
  have hrun : ∀ c : Nat × List Segment, s ∈ (parts.foldl climbStep c).2 →
      s ∈ c.2 ∨ (s ∈ parts ∧ isName s) := by
    clear h
    induction parts with
    | nil => exact fun c hc => .inl hc
    | cons x rest ih =>
        intro c hc
        rcases ih (climbStep c x) hc with hmem | ⟨hmem, hname⟩
        · rcases hstep c x hmem with hmem | ⟨rfl, hname⟩
          · exact .inl hmem
          · exact .inr ⟨List.mem_cons_self, hname⟩
        · exact .inr ⟨List.mem_cons_of_mem x hmem, hname⟩
  rcases hrun (0, []) h with hmem | hmem
  · exact absurd hmem List.not_mem_nil
  · exact hmem

theorem mem_walk (h : s ∈ walk dir parts) : s ∈ dir ∨ (s ∈ parts ∧ isName s) := by
  rw [walk_eq, landing] at h
  rcases List.mem_append.mp h with hs | hs
  · exact .inl (List.mem_of_mem_take hs)
  · exact .inr (mem_climb hs)

/-- Segments without `..` climb nowhere. -/
theorem climb_fst_eq_zero (h : up ∉ parts) : (climb parts).1 = 0 := by
  have hrun : ∀ c : Nat × List Segment, (parts.foldl climbStep c).1 = c.1 := by
    induction parts with
    | nil => exact fun c => rfl
    | cons x rest ih =>
        intro c
        have hx : x ≠ up := fun heq => h (heq ▸ List.mem_cons_self)
        rw [List.foldl_cons, ih (fun hmem => h (List.mem_cons_of_mem x hmem))]
        unfold climbStep
        rw [if_neg hx]
        split <;> rfl
  exact hrun (0, [])

section Text

/-- No segment holds the separator it was split at. -/
theorem splitOn_free {sep : Char} (h : s ∈ text.splitOn sep) : sep ∉ s := by
  induction text generalizing s with
  | nil =>
      rw [List.splitOn_nil, List.mem_singleton] at h
      exact h ▸ List.not_mem_nil
  | cons c rest ih =>
      rw [List.splitOn_cons_eq_if_modifyHead] at h
      split at h
      · rcases List.mem_cons.mp h with rfl | h
        · exact List.not_mem_nil
        · exact ih h
      · rename_i hc
        obtain ⟨head, tail, hsplit⟩ := List.exists_cons_of_ne_nil (List.splitOn_ne_nil sep rest)
        rw [hsplit] at h ih
        rcases List.mem_cons.mp h with rfl | h
        · intro hmem
          rcases List.mem_cons.mp hmem with rfl | hmem
          · exact hc (beq_self_eq_true _)
          · exact ih List.mem_cons_self hmem
        · exact ih (List.mem_cons_of_mem head h)

/-- Leading slashes make empty segments only. -/
theorem segments_dropWhile (text : List Char) :
    segments (text.dropWhile (· == '/')) = segments text := by
  induction text with
  | nil => rfl
  | cons c rest ih =>
      by_cases hc : (c == '/') = true
      · rw [List.dropWhile_cons, if_pos hc, ih]
        unfold segments
        rw [List.splitOn_cons_eq_if_modifyHead, if_pos hc, List.filter_cons_of_neg (by simp)]
      · rw [List.dropWhile_cons, if_neg hc]

/-- The segments of `s` when backslashes separate too. -/
def pieces (s : Segment) : List Segment := (s.splitOn '\\').filter (· ≠ [])

def slashes (text : List Char) : List Char := text.map fun c => if c = '\\' then '/' else c

theorem splitOn_slashes (text : List Char) :
    (slashes text).splitOn '/' = (text.splitOn '/').flatMap (·.splitOn '\\') := by
  induction text with
  | nil => rfl
  | cons c rest ih =>
      obtain ⟨head, tail, hsplit⟩ := List.exists_cons_of_ne_nil (List.splitOn_ne_nil '/' rest)
      obtain ⟨first, others, hhead⟩ :=
        List.exists_cons_of_ne_nil (List.splitOn_ne_nil '\\' head)
      have ih' : (slashes rest).splitOn '/' = (head :: tail).flatMap (·.splitOn '\\') :=
        hsplit ▸ ih
      rw [List.flatMap_cons, hhead] at ih'
      change ((if c = '\\' then '/' else c) :: slashes rest).splitOn '/' = _
      rw [List.splitOn_cons_eq_if_modifyHead, List.splitOn_cons_eq_if_modifyHead c rest, hsplit]
      by_cases hback : c = '\\'
      · subst hback
        rw [if_pos rfl, if_pos (by decide), if_neg (by decide), ih']
        simp [List.splitOn_cons_eq_if_modifyHead, hhead]
      · rw [if_neg hback]
        by_cases hslash : c = '/'
        · subst hslash
          rw [if_pos (by decide), if_pos (by decide), ih']
          simp [hhead]
        · have hne : ¬ (c == '/') = true := by simpa using hslash
          have hnb : ¬ (c == '\\') = true := by simpa using hback
          rw [if_neg hne, if_neg hne, ih']
          simp [List.splitOn_cons_eq_if_modifyHead, hhead, hback]

/-- Reading backslashes as slashes splits the segments further. -/
theorem segments_slashes (text : List Char) :
    segments (slashes text) = (segments text).flatMap pieces := by
  unfold segments
  rw [splitOn_slashes]
  generalize text.splitOn '/' = parts
  induction parts with
  | nil => rfl
  | cons s rest ih =>
      rw [List.flatMap_cons, List.filter_append, ih]
      by_cases hs : s = []
      · subst hs
        rw [List.filter_cons_of_neg (by simp)]
        rfl
      · rw [List.filter_cons_of_pos (by simpa using hs), List.flatMap_cons]
        rfl

/-- A walk along a text that is read with both separators. -/
theorem walk_text (dir : List Segment) (text : List Char) :
    walk dir (((slashes text).dropWhile (· == '/')).splitOn '/') =
      walk dir ((segments text).flatMap pieces) := by
  rw [← walk_filter]
  change walk dir (segments ((slashes text).dropWhile (· == '/'))) = _
  rw [segments_dropWhile, segments_slashes]

theorem pieces_eq_self (hne : s ≠ []) (h : '\\' ∉ s) : pieces s = [s] := by
  unfold pieces
  rw [List.splitOn_eq_singleton h]
  simp [hne]

theorem flatMap_pieces_self {folder : List Segment} (hne : ∀ s ∈ folder, s ≠ [])
    (h : ∀ s ∈ folder, '\\' ∉ s) : folder.flatMap pieces = folder := by
  induction folder with
  | nil => rfl
  | cons s rest ih =>
      rw [List.flatMap_cons, pieces_eq_self (hne s List.mem_cons_self) (h s List.mem_cons_self),
        ih (fun x hx => hne x (List.mem_cons_of_mem s hx))
          fun x hx => h x (List.mem_cons_of_mem s hx)]
      rfl

/-- A text that does not start with a slash starts with its first segment. -/
theorem segments_cons {c : Char} (hc : c ≠ '/') (text : List Char) :
    ∃ x rest, segments (c :: text) = (c :: x) :: rest := by
  obtain ⟨head, tail, hsplit⟩ := List.exists_cons_of_ne_nil (List.splitOn_ne_nil '/' text)
  refine ⟨head, tail.filter (· ≠ []), ?_⟩
  unfold segments
  rw [List.splitOn_cons_eq_if_modifyHead, if_neg (by simpa using hc), hsplit,
    List.modifyHead_cons, List.filter_cons_of_pos (by simp)]

theorem segments_infix (h : s ∈ segments text) : s <:+: text := by
  have hsplit : ∀ ls : List Segment, s ∈ ls → s <:+: ['/'].intercalate ls := by
    intro ls
    induction ls with
    | nil => exact fun hs => absurd hs List.not_mem_nil
    | cons x rest ih =>
        intro hs
        by_cases hrest : rest = []
        · subst hrest
          rw [List.mem_singleton] at hs
          rw [hs, List.intercalate_singleton]
        · rw [List.intercalate_cons_of_ne_nil hrest]
          rcases List.mem_cons.mp hs with rfl | hs
          · exact ⟨[], '/' :: ['/'].intercalate rest, by simp⟩
          · exact (ih hs).trans ⟨x ++ ['/'], [], by simp⟩
  have hmem := hsplit (text.splitOn '/') (List.mem_of_mem_filter h)
  rw [List.intercalate_splitOn] at hmem
  exact hmem

end Text

section Render

variable {base target : List Segment}

/-- Segments between slashes, none of them empty. -/
def Clean (dir : List Segment) : Prop := ∀ s ∈ dir, s ≠ [] ∧ '/' ∉ s

theorem intercalate_append {a b : List Segment} (ha : a ≠ []) (hb : b ≠ []) :
    ['/'].intercalate (a ++ b) = ['/'].intercalate a ++ '/' :: ['/'].intercalate b := by
  induction a with
  | nil => exact absurd rfl ha
  | cons s rest ih =>
      cases rest with
      | nil =>
          rw [List.singleton_append, List.intercalate_cons_of_ne_nil hb,
            List.intercalate_singleton]
          simp
      | cons s' rest' =>
          have hrest := ih (List.cons_ne_nil s' rest')
          rw [List.cons_append, List.intercalate_cons_of_ne_nil (by simp), hrest,
            List.intercalate_cons_of_ne_nil (List.cons_ne_nil s' rest')]
          simp

theorem segments_intercalate (h : Clean base) : segments (['/'].intercalate base) = base := by
  by_cases hne : base = []
  · subst hne
    rfl
  · unfold segments
    rw [List.splitOn_intercalate '/' (fun s hs => (h s hs).2) hne]
    exact List.filter_eq_self.mpr fun s hs => by simpa using (h s hs).1

theorem splitOn_render (h : Clean base) :
    (['/'].intercalate ([] :: base)).splitOn '/' = [] :: base := by
  refine List.splitOn_intercalate '/' (fun s hs => ?_) (List.cons_ne_nil _ _)
  rcases List.mem_cons.mp hs with rfl | hs
  · exact List.not_mem_nil
  · exact (h s hs).2

theorem render_prefix_iff (hb : Clean base) (ht : Clean target) (hne : base ≠ []) :
    render base ++ ['/'] <+: render target ↔ ∃ s rest, target = base ++ s :: rest := by
  have hbase : render base = ['/'].intercalate ([] :: base) := if_neg hne
  constructor
  · rintro ⟨w, hw⟩
    have htarget : target ≠ [] := by
      rintro rfl
      have hlen := congrArg List.length hw
      rw [hbase, List.intercalate_cons_of_ne_nil hne] at hlen
      simp [render] at hlen
    rw [hbase, render, if_neg htarget, List.append_assoc, List.singleton_append] at hw
    have hsplit := congrArg (List.splitOn '/') hw
    rw [List.splitOn_append_cons_self, splitOn_render hb, splitOn_render ht, List.cons_append,
      List.cons.injEq] at hsplit
    obtain ⟨s, rest, hcons⟩ := List.exists_cons_of_ne_nil (List.splitOn_ne_nil '/' w)
    exact ⟨s, rest, by rw [← hsplit.2, hcons]⟩
  · rintro ⟨s, rest, rfl⟩
    refine ⟨['/'].intercalate (s :: rest), ?_⟩
    have happend := intercalate_append (List.cons_ne_nil [] base) (List.cons_ne_nil s rest)
    rw [hbase, render, if_neg (by simp), ← List.cons_append, happend]
    simp

theorem render_injective (hb : Clean base) (ht : Clean target)
    (h : render target = render base) : target = base := by
  -- an empty path and a one-segment path differ in length, the rest split back
  have hroot : ∀ dir : List Segment, Clean dir → render dir = ['/'] → dir = [] := by
    intro dir hdir heq
    by_contra hne
    rw [render, if_neg hne] at heq
    have hsplit := splitOn_render hdir
    rw [heq] at hsplit
    have hdirs : [([] : Segment)] = dir := by
      simpa [List.splitOn_cons_eq_if_modifyHead] using hsplit
    exact (hdir [] (hdirs ▸ List.mem_singleton.mpr rfl)).1 rfl
  by_cases hne : base = []
  · subst hne
    exact hroot target ht (h.trans (if_pos rfl))
  · by_cases hnt : target = []
    · subst hnt
      exact (hroot base hb (h.symm.trans (if_pos rfl))).symm
    · rw [render, render, if_neg hne, if_neg hnt] at h
      have hsplit := congrArg (List.splitOn '/') h
      rw [splitOn_render hb, splitOn_render ht, List.cons.injEq] at hsplit
      exact hsplit.2

/-- The text of `target` is that of `base` or continues it after a slash.  The
root is the odd one: its text ends in the slash, so nothing continues it. -/
theorem render_inside_iff (hb : Clean base) (ht : Clean target) :
    (render target = render base ∨ render base ++ ['/'] <+: render target) ↔
      if base = [] then target = [] else base <+: target := by
  by_cases hne : base = []
  · subst hne
    rw [if_pos rfl]
    constructor
    · rintro (heq | ⟨w, hw⟩)
      · exact render_injective hb ht heq
      · by_contra hnt
        have htarget : render target = ['/'].intercalate ([] :: target) := if_neg hnt
        have hsplit := congrArg (List.splitOn '/') hw
        rw [htarget, splitOn_render ht] at hsplit
        have hcons : [] :: [] :: w.splitOn '/' = [] :: target := by
          rw [← hsplit]
          simp [render, List.splitOn_cons_eq_if_modifyHead]
        rw [List.cons.injEq] at hcons
        exact (ht [] (hcons.2 ▸ List.mem_cons_self)).1 rfl
    · rintro rfl
      exact .inl rfl
  · rw [if_neg hne]
    constructor
    · rintro (heq | hprefix)
      · exact render_injective hb ht heq ▸ List.prefix_refl _
      · obtain ⟨s, rest, rfl⟩ := (render_prefix_iff hb ht hne).mp hprefix
        exact List.prefix_append base _
    · rintro ⟨rest, rfl⟩
      cases rest with
      | nil => exact .inl (by rw [List.append_nil])
      | cons s rest => exact .inr ((render_prefix_iff hb ht hne).mpr ⟨s, rest, rfl⟩)

end Render

end Path

end Lib
end ERP
