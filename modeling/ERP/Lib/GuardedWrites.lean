import Mathlib.Data.List.Nodup
import ERP.Lib.LockedTable
import ERP.Lib.Tasks

/-!
# Writes under a condition

A transaction reads a row, plans what to do by what it has read, and writes the row in one
statement whose condition is checked again on the row it gets.  Where the condition fails
nothing is changed and the transaction is rolled back.  What was done is added to a log in
the same transaction.

READ COMMITTED orders the writes to a row by its lock and puts no order on the reads.  The
transactions that were committed, in the order of their commits, are nevertheless a serial run
of the writes alone, each of them on a row that meets its condition: `Linearized`.
-/

namespace ERP
namespace Lib

/-- Rows that are only ever added: the committed ones, and those of open transactions. -/
structure Log (E : Type) where
  committed : List E
  pending : List (Nat × E)
  deriving DecidableEq, Repr

namespace Log

variable {E : Type} (l : Log E) (p : Nat)

/-- What transaction `p` has added and not committed. -/
def own : List E := (l.pending.filter fun row => row.1 = p).map Prod.snd

def insert (e : E) : Log E := { l with pending := l.pending ++ [(p, e)] }

def commit : Log E := ⟨l.committed ++ l.own p, l.pending.filter fun row => row.1 ≠ p⟩

def rollback : Log E := { l with pending := l.pending.filter fun row => row.1 ≠ p }

theorem own_insert_self (e : E) : (l.insert p e).own p = l.own p ++ [e] := by
  unfold own insert
  rw [List.filter_append, List.map_append, List.filter_cons_of_pos (by simp)]
  rfl

theorem own_insert_of_ne {q : Nat} (hq : q ≠ p) (e : E) : (l.insert p e).own q = l.own q := by
  unfold own insert
  rw [List.filter_append, List.filter_cons_of_neg (by simpa using fun h : p = q => hq h.symm),
    List.filter_nil, List.append_nil]

private theorem own_drop_self :
    ((l.pending.filter fun row => row.1 ≠ p).filter fun row => row.1 = p) = [] := by
  rw [List.filter_filter, List.filter_eq_nil_iff]
  intro row _
  simp

private theorem own_drop_of_ne {q : Nat} (hq : q ≠ p) :
    ((l.pending.filter fun row => row.1 ≠ p).filter fun row => row.1 = q) =
      l.pending.filter fun row => row.1 = q := by
  rw [List.filter_filter]
  refine List.filter_congr fun row _ => ?_
  by_cases hrow : row.1 = q
  · simp [hrow, hq]
  · simp [hrow]

theorem own_rollback_self : (l.rollback p).own p = [] :=
  congrArg (List.map Prod.snd) (own_drop_self l p)

theorem own_rollback_of_ne {q : Nat} (hq : q ≠ p) : (l.rollback p).own q = l.own q :=
  congrArg (List.map Prod.snd) (own_drop_of_ne l p hq)

theorem own_commit_self : (l.commit p).own p = [] := own_rollback_self l p

theorem own_commit_of_ne {q : Nat} (hq : q ≠ p) : (l.commit p).own q = l.own q :=
  own_rollback_of_ne l p hq

end Log

/-- What the transactions of one kind do.  `plan` stands for all that comes before the write,
from what the first read has found (and whatever is asked outside the store); `write` is the
row that the write leaves, or nothing where its condition fails. -/
structure GuardedWrite (K V E R C χ : Type) where
  key : R → K
  plan : R → χ → Option V → Option C
  write : R → C → Option V → Option V
  entries : R → C → List E

structure GuardedStore (K V E : Type) where
  rows : LockedTable K V
  log : Log E

namespace GuardedStore

variable {K V E : Type} (s : GuardedStore K V E) (p : Nat)

def row (k : K) : Option V := (s.rows.cell k).committed

def commit : GuardedStore K V E := ⟨s.rows.commit p, s.log.commit p⟩

def rollback : GuardedStore K V E := ⟨s.rows.rollback p, s.log.rollback p⟩

def insert (e : E) : GuardedStore K V E := { s with log := s.log.insert p e }

variable [DecidableEq K]

def write (k : K) (v : V) : GuardedStore K V E :=
  { s with rows := s.rows.set k ((s.rows.cell k).write p (some v)) }

/-- A database in which no transaction is open. -/
def opening (key : V → K) (rows : List V) (log : List E) : GuardedStore K V E :=
  ⟨.stored key rows, ⟨log, []⟩⟩

end GuardedStore

/-- The statement a transaction sends next. -/
inductive GuardedCall (E R C : Type) where
  | reading (request : R)
  | writing (request : R) (plan : C)
  | logging (request : R) (plan : C) (rest : List E)
  | done (request : R) (plan : C)
  | rejected
  | stopped
  deriving DecidableEq, Repr

/-- The plan of a call that has made one. -/
def GuardedCall.planned {E R C : Type} : GuardedCall E R C → Option (R × C)
  | .writing r c | .logging r c _ | .done r c => some (r, c)
  | .reading _ | .rejected | .stopped => none

namespace GuardedWrite

variable {K V E R C χ : Type} [DecidableEq K] (g : GuardedWrite K V E R C χ)

def next (p : Nat) (answer : χ) (k : GuardedCall E R C) (s : GuardedStore K V E) :
    GuardedCall E R C × GuardedStore K V E :=
  match k with
  | .reading r =>
      match g.plan r answer (s.row (g.key r)) with
      | none => (.rejected, s)
      | some c => (.writing r c, s)
  | .writing r c =>
      match g.write r c (s.row (g.key r)) with
      | none => (.rejected, s)
      | some v =>
          if (s.rows.cell (g.key r)).available p = false then (.writing r c, s)
          else (.logging r c (g.entries r c), s.write p (g.key r) v)
  | .logging r c (e :: rest) => (.logging r c rest, s.insert p e)
  | .logging r c [] => (.done r c, s.commit p)
  | .done r c => (.done r c, s)
  | .rejected => (.rejected, s)
  | .stopped => (.stopped, s)

/-- A crash rolls an open transaction back; a call that is over stays so. -/
def stop (p : Nat) (k : GuardedCall E R C) (s : GuardedStore K V E) :
    GuardedCall E R C × GuardedStore K V E :=
  match k with
  | .logging _ _ _ => (.stopped, s.rollback p)
  | .reading _ | .writing _ _ => (.stopped, s)
  | k => (k, s)

def system : System (GuardedStore K V E) R (GuardedCall E R C) χ Empty where
  start := .reading
  next := g.next
  act := fun o => nomatch o
  stop := stop

end GuardedWrite

namespace GuardedWrite

variable {K V E R C χ : Type} [DecidableEq K] (g : GuardedWrite K V E R C χ)

/-- A step keeps the plan of the call, or makes one from the row that is there. -/
theorem planned_next (p : Nat) (answer : χ) (k : GuardedCall E R C) (s : GuardedStore K V E)
    {r : R} {c : C} (h : (g.next p answer k s).1.planned = some (r, c)) :
    k.planned = some (r, c) ∨ k = .reading r ∧ g.plan r answer (s.row (g.key r)) = some c := by
  cases k with
  | reading r' =>
      unfold next at h
      dsimp only at h
      cases hplan : g.plan r' answer (s.row (g.key r')) with
      | none =>
          rw [hplan] at h
          cases h
      | some c' =>
          rw [hplan] at h
          cases h
          exact .inr ⟨rfl, hplan⟩
  | writing r' c' =>
      unfold next at h
      dsimp only at h
      cases hwrite : g.write r' c' (s.row (g.key r')) with
      | none =>
          rw [hwrite] at h
          cases h
      | some v =>
          rw [hwrite] at h
          dsimp only at h
          split at h
          · exact .inl h
          · exact .inl h
  | logging r' c' rest =>
      cases rest with
      | nil => exact .inl h
      | cons e rest => exact .inl h
  | done r' c' => exact .inl h
  | rejected => exact .inl h
  | stopped => exact .inl h

omit [DecidableEq K] in
theorem planned_stop (p : Nat) (k : GuardedCall E R C) (s : GuardedStore K V E) {r : R} {c : C}
    (h : (stop p k s).1.planned = some (r, c)) : k.planned = some (r, c) := by
  cases k with
  | reading r' => cases h
  | writing r' c' => cases h
  | logging r' c' rest => cases h
  | done r' c' => exact h
  | rejected => exact h
  | stopped => exact h

end GuardedWrite

/-- A transaction that was committed. -/
structure Effect (R C : Type) where
  call : Nat
  request : R
  plan : C
  deriving DecidableEq, Repr

namespace GuardedWrite

variable {K V E R C χ : Type} (g : GuardedWrite K V E R C χ)

/-- Writes made one after the other, each on a row that meets its condition. -/
def Replays : Option V → List (Effect R C) → Option V → Prop
  | row, [], row' => row' = row
  | row, d :: rest, row' =>
      ∃ v, g.write d.request d.plan row = some v ∧ Replays (some v) rest row'

theorem replays_append {row row' row'' : Option V} {first second : List (Effect R C)}
    (hfirst : g.Replays row first row') (hsecond : g.Replays row' second row'') :
    g.Replays row (first ++ second) row'' := by
  induction first generalizing row with
  | nil =>
      cases hfirst
      exact hsecond
  | cons d rest ih =>
      obtain ⟨v, hv, hrest⟩ := hfirst
      exact ⟨v, hv, ih hrest⟩

theorem replays_concat {row row' : Option V} {first : List (Effect R C)} {d : Effect R C}
    (h : g.Replays row (first ++ [d]) row') :
    ∃ mid, g.Replays row first mid ∧
      ∃ v, g.write d.request d.plan mid = some v ∧ row' = some v := by
  induction first generalizing row with
  | nil =>
      obtain ⟨v, hv, hrest⟩ := h
      exact ⟨row, rfl, v, hv, hrest⟩
  | cons d' rest ih =>
      obtain ⟨v, hv, hrest⟩ := h
      obtain ⟨mid, hmid, hlast⟩ := ih hrest
      exact ⟨mid, ⟨v, hv, hmid⟩, hlast⟩

/-- A property that each write hands on to the row it leaves. -/
theorem Replays.keeps {P : Option V → Prop} {row row' : Option V} {history : List (Effect R C)}
    (h : g.Replays row history row') (hrow : P row)
    (hwrite : ∀ d ∈ history, ∀ row v, P row → g.write d.request d.plan row = some v →
      P (some v)) : P row' := by
  induction history generalizing row with
  | nil =>
      cases h
      exact hrow
  | cons d rest ih =>
      obtain ⟨v, hv, hrest⟩ := h
      exact ih hrest (hwrite d List.mem_cons_self row v hrow hv) fun d' hd' =>
        hwrite d' (List.mem_cons_of_mem d hd')

/-- What a call relies on where it stands. -/
def Stands (s : GuardedStore K V E) (p : Nat) : GuardedCall E R C → Prop
  | .logging r c rest => ∃ v, (s.rows.cell (g.key r)).lock = some ⟨p, some (some v)⟩ ∧
      g.write r c (s.row (g.key r)) = some v ∧ s.log.own p ++ rest = g.entries r c
  | _ => s.log.own p = []

/-- What the others rely on after a step of `p`: their locks, their rows and what they have
logged. -/
structure Apart (s s' : GuardedStore K V E) (p : Nat) : Prop where
  lock : ∀ k q w, q ≠ p →
    ((s'.rows.cell k).lock = some ⟨q, w⟩ ↔ (s.rows.cell k).lock = some ⟨q, w⟩)
  row : ∀ k q w, q ≠ p → (s.rows.cell k).lock = some ⟨q, w⟩ → s'.row k = s.row k
  own : ∀ q, q ≠ p → s'.log.own q = s.log.own q

theorem Apart.refl (s : GuardedStore K V E) (p : Nat) : Apart s s p where
  lock := fun _ _ _ _ => Iff.rfl
  row := fun _ _ _ _ _ => rfl
  own := fun _ _ => rfl

theorem stands_apart {s s' : GuardedStore K V E} {p q : Nat} {k : GuardedCall E R C}
    (h : g.Stands s q k) (hq : q ≠ p)
    (hapart : Apart s s' p) : g.Stands s' q k := by
  cases k with
  | logging r c rest =>
      obtain ⟨v, hlock, hwrite, hown⟩ := h
      refine ⟨v, (hapart.lock _ q _ hq).mpr hlock, ?_, ?_⟩
      · rw [hapart.row _ q _ hq hlock]
        exact hwrite
      · rw [hapart.own q hq]
        exact hown
  | _ => exact (hapart.own q hq).trans h

variable [DecidableEq K]

/-- The part of a history that is about one row. -/
def on (k : K) (history : List (Effect R C)) : List (Effect R C) :=
  history.filter fun d => g.key d.request = k

/-- What the committed transactions come to between any two steps. -/
structure Linearized (s₀ : GuardedStore K V E) (history : List (Effect R C))
    (s : GuardedStore K V E) (calls : Nat → Option (GuardedCall E R C)) : Prop where
  row : ∀ k, g.Replays (s₀.row k) (g.on k history) (s.row k)
  log : s.log.committed = s₀.log.committed ++
    history.flatMap fun d => g.entries d.request d.plan
  nodup : (history.map Effect.call).Nodup
  done : ∀ p r c, calls p = some (.done r c) ↔ ⟨p, r, c⟩ ∈ history
  holder : ∀ k q w, (s.rows.cell k).lock = some ⟨q, w⟩ →
    ∃ r c rest, calls q = some (.logging r c rest) ∧ g.key r = k
  stands : ∀ q k, calls q = some k → g.Stands s q k
  fresh : ∀ q, calls q = none → s.log.own q = []

namespace Linearized

variable {g} {s₀ s s' : GuardedStore K V E} {history : List (Effect R C)}
  {calls : Nat → Option (GuardedCall E R C)} {p : Nat} {k' : GuardedCall E R C}

theorem not_held (h : g.Linearized s₀ history s calls)
    (hp : ∀ r c rest, calls p ≠ some (.logging r c rest)) (k : K) :
    ¬ (s.rows.cell k).heldBy p := by
  rintro ⟨⟨q, w⟩, hlock, rfl⟩
  obtain ⟨r, c, rest, hcall, -⟩ := h.holder k q w hlock
  exact hp r c rest hcall

/-- A transaction that logs holds its row and no other. -/
theorem held_iff (h : g.Linearized s₀ history s calls) {r : R} {c : C} {rest : List E}
    (hp : calls p = some (.logging r c rest)) (k : K) :
    (s.rows.cell k).heldBy p ↔ g.key r = k := by
  constructor
  · rintro ⟨⟨q, w⟩, hlock, rfl⟩
    obtain ⟨r', c', rest', hcall, hkey⟩ := h.holder k q w hlock
    rw [hp] at hcall
    cases hcall
    exact hkey
  · rintro rfl
    obtain ⟨v, hlock, -⟩ := h.stands p _ hp
    exact ⟨_, hlock, rfl⟩

/-- A call moves on without a commit. -/
theorem move (h : g.Linearized s₀ history s calls) (hapart : Apart s s' p)
    (hrow : ∀ k, s'.row k = s.row k) (hlog : s'.log.committed = s.log.committed)
    (hp : ∀ r c, calls p ≠ some (.done r c)) (hk' : ∀ r c, k' ≠ .done r c)
    (hholder : ∀ k w, (s'.rows.cell k).lock = some ⟨p, w⟩ →
      ∃ r c rest, k' = .logging r c rest ∧ g.key r = k)
    (hstands : g.Stands s' p k') :
    g.Linearized s₀ history s' (Function.update calls p (some k')) where
  row := fun k => (hrow k).symm ▸ h.row k
  log := hlog.trans h.log
  nodup := h.nodup
  done := by
    intro q r c
    by_cases hq : q = p
    · subst hq
      rw [Function.update_self]
      refine iff_of_false (fun hd => hk' r c (Option.some.inj hd)) fun hd => ?_
      exact hp r c ((h.done q r c).mpr hd)
    · rw [Function.update_of_ne hq]
      exact h.done q r c
  holder := by
    intro k q w hlock
    by_cases hq : q = p
    · subst hq
      obtain ⟨r, c, rest, rfl, hkey⟩ := hholder k w hlock
      exact ⟨r, c, rest, Function.update_self .., hkey⟩
    · rw [Function.update_of_ne hq]
      exact h.holder k q w ((hapart.lock k q w hq).mp hlock)
  stands := by
    intro q k hk
    by_cases hq : q = p
    · subst hq
      rw [Function.update_self] at hk
      cases hk
      exact hstands
    · rw [Function.update_of_ne hq] at hk
      exact g.stands_apart (h.stands q k hk) hq hapart
  fresh := by
    intro q hcall
    by_cases hq : q = p
    · subst hq
      rw [Function.update_self] at hcall
      cases hcall
    · rw [Function.update_of_ne hq] at hcall
      exact (hapart.own q hq).trans (h.fresh q hcall)

/-- A call that holds nothing moves on and leaves the store alone. -/
theorem stay (h : g.Linearized s₀ history s calls) (hp : s.log.own p = [])
    (hnot : ∀ r c rest, calls p ≠ some (.logging r c rest))
    (hdone : ∀ r c, calls p ≠ some (.done r c)) (hk' : ∀ r c, k' ≠ .done r c)
    (hk'' : ∀ r c rest, k' ≠ .logging r c rest) :
    g.Linearized s₀ history s (Function.update calls p (some k')) := by
  refine h.move (.refl s p) (fun _ => rfl) rfl hdone hk' ?_ ?_
  · intro k w hlock
    exact absurd ⟨_, hlock, rfl⟩ (h.not_held hnot k)
  · cases k' with
    | logging r c rest => exact absurd rfl (hk'' r c rest)
    | _ => exact hp

theorem spawn (h : g.Linearized s₀ history s calls) (hp : calls p = none) (r : R) :
    g.Linearized s₀ history s (Function.update calls p (some (.reading r))) :=
  h.stay (h.fresh p hp) (by rw [hp]; exact nofun) (by rw [hp]; exact nofun) nofun nofun

theorem write (h : g.Linearized s₀ history s calls) {r : R} {c : C} {v : V}
    (hp : calls p = some (.writing r c)) (hwrite : g.write r c (s.row (g.key r)) = some v)
    (hfree : (s.rows.cell (g.key r)).available p = true) :
    g.Linearized s₀ history (s.write p (g.key r) v)
      (Function.update calls p (some (.logging r c (g.entries r c)))) := by
  have hnot (k : K) : ¬ (s.rows.cell k).heldBy p :=
    h.not_held (by rw [hp]; exact nofun) k
  have hlock : (s.rows.cell (g.key r)).lock = none := Cell.lock_eq_none hfree (hnot _)
  have hself : (s.write p (g.key r) v).rows.cell (g.key r) =
      (s.rows.cell (g.key r)).write p (some v) := LockedTable.set_cell_self
  have hother {k : K} (hk : k ≠ g.key r) :
      (s.write p (g.key r) v).rows.cell k = s.rows.cell k := LockedTable.set_cell_of_ne hk
  have hrow (k : K) : (s.write p (g.key r) v).row k = s.row k := by
    show ((s.write p (g.key r) v).rows.cell k).committed = (s.rows.cell k).committed
    by_cases hk : k = g.key r
    · rw [hk, hself, Cell.write_committed]
    · rw [hother hk]
  have hapart : Apart s (s.write p (g.key r) v) p := by
    refine ⟨fun k q w hq => ?_, fun k _ _ _ _ => hrow k, fun _ _ => rfl⟩
    by_cases hk : k = g.key r
    · rw [hk, hself, hlock]
      refine iff_of_false (fun hl => ?_) nofun
      exact hq (congrArg RowLock.holder (Option.some.inj hl)).symm
    · rw [hother hk]
  refine h.move hapart hrow rfl (by rw [hp]; exact nofun) nofun ?_ ?_
  · intro k w hl
    by_cases hk : k = g.key r
    · exact ⟨r, c, _, rfl, hk.symm⟩
    · rw [hother hk] at hl
      exact absurd ⟨_, hl, rfl⟩ (hnot k)
  · refine ⟨v, ?_, ?_, ?_⟩
    · rw [hself]
      rfl
    · rw [hrow]
      exact hwrite
    · have hown : s.log.own p = [] := h.stands p _ hp
      show s.log.own p ++ _ = _
      rw [hown, List.nil_append]

theorem insert (h : g.Linearized s₀ history s calls) {r : R} {c : C} {e : E} {rest : List E}
    (hp : calls p = some (.logging r c (e :: rest))) :
    g.Linearized s₀ history (s.insert p e)
      (Function.update calls p (some (.logging r c rest))) := by
  obtain ⟨v, hlock, hwrite, hown⟩ := h.stands p _ hp
  refine h.move ⟨fun _ _ _ _ => Iff.rfl, fun _ _ _ _ _ => rfl, fun q hq => ?_⟩ (fun _ => rfl) rfl
    (by rw [hp]; exact nofun) nofun ?_ ⟨v, hlock, hwrite, ?_⟩
  · exact Log.own_insert_of_ne s.log p hq e
  · intro k w hl
    exact ⟨r, c, rest, rfl, (h.held_iff hp k).mp ⟨_, hl, rfl⟩⟩
  · show (s.log.insert p e).own p ++ rest = _
    rw [Log.own_insert_self, List.append_assoc]
    exact hown

/-- A transaction that is committed is the last of the history. -/
theorem commit (h : g.Linearized s₀ history s calls) {r : R} {c : C}
    (hp : calls p = some (.logging r c [])) :
    g.Linearized s₀ (history ++ [⟨p, r, c⟩]) (s.commit p)
      (Function.update calls p (some (.done r c))) := by
  obtain ⟨v, hlock, hwrite, hown⟩ := h.stands p _ hp
  rw [List.append_nil] at hown
  have hself : (s.commit p).row (g.key r) = some v := Cell.commit_committed_of_lock hlock
  have hcell {k : K} (hk : g.key r ≠ k) : (s.commit p).rows.cell k = s.rows.cell k :=
    Cell.commit_of_not_heldBy fun hheld => hk ((h.held_iff hp k).mp hheld)
  have hnew {q : Nat} {r' : R} {c' : C} (hq : ⟨q, r', c'⟩ ∈ history) : q ≠ p := by
    rintro rfl
    rw [(h.done q r' c').mpr hq] at hp
    cases hp
  have hapart : Apart s (s.commit p) p := by
    refine ⟨fun k q w hq => ?_, fun k q w hq hl => ?_, fun q hq => ?_⟩
    · by_cases hk : g.key r = k
      · subst hk
        refine iff_of_false (fun hl => ?_) fun hl => ?_
        · have hheld := Cell.heldBy_commit ⟨_, hl, rfl⟩
          exact hq (Cell.heldBy_unique hheld ⟨_, hlock, rfl⟩)
        · rw [hlock] at hl
          exact hq (congrArg RowLock.holder (Option.some.inj hl)).symm
      · rw [hcell hk]
    · refine congrArg Cell.committed (hcell fun hk => ?_)
      subst hk
      rw [hlock] at hl
      exact hq (congrArg RowLock.holder (Option.some.inj hl)).symm
    · exact Log.own_commit_of_ne s.log p hq
  exact {
    row := by
      intro k
      unfold GuardedWrite.on
      rw [List.filter_append]
      by_cases hk : g.key r = k
      · subst hk
        rw [List.filter_cons_of_pos (by simp), List.filter_nil, hself]
        exact g.replays_append (h.row _) ⟨v, hwrite, rfl⟩
      · rw [List.filter_cons_of_neg (by simpa using hk), List.filter_nil, List.append_nil]
        have hrow : (s.commit p).row k = s.row k := congrArg Cell.committed (hcell hk)
        rw [hrow]
        exact h.row k
    log := by
      show s.log.committed ++ s.log.own p = _
      rw [h.log, hown, List.flatMap_append, List.append_assoc]
      simp
    nodup := by
      rw [List.map_append]
      refine List.Nodup.append h.nodup (List.nodup_singleton p) ?_
      intro q hq hqp
      obtain ⟨⟨q', r', c'⟩, hd, rfl⟩ := List.mem_map.mp hq
      exact hnew hd (List.mem_singleton.mp hqp)
    done := by
      intro q r' c'
      rw [List.mem_append, List.mem_singleton]
      by_cases hq : q = p
      · subst hq
        rw [Function.update_self]
        constructor
        · intro hd
          cases hd
          exact .inr rfl
        · rintro (hd | hd)
          · exact absurd rfl (hnew hd)
          · cases hd
            rfl
      · rw [Function.update_of_ne hq, h.done]
        refine ⟨.inl, ?_⟩
        rintro (hd | hd)
        · exact hd
        · cases hd
          exact absurd rfl hq
    holder := by
      intro k q w hl
      have hq : q ≠ p := by
        rintro rfl
        exact Cell.not_heldBy_commit (s.rows.cell k) q ⟨_, hl, rfl⟩
      rw [Function.update_of_ne hq]
      exact h.holder k q w ((hapart.lock k q w hq).mp hl)
    stands := by
      intro q k hk
      by_cases hq : q = p
      · subst hq
        rw [Function.update_self] at hk
        cases hk
        exact Log.own_commit_self s.log q
      · rw [Function.update_of_ne hq] at hk
        exact g.stands_apart (h.stands q k hk) hq hapart
    fresh := by
      intro q hcall
      by_cases hq : q = p
      · subst hq
        rw [Function.update_self] at hcall
        cases hcall
      · rw [Function.update_of_ne hq] at hcall
        exact (hapart.own q hq).trans (h.fresh q hcall) }

theorem rollback (h : g.Linearized s₀ history s calls) {r : R} {c : C} {rest : List E}
    (hp : calls p = some (.logging r c rest)) :
    g.Linearized s₀ history (s.rollback p) (Function.update calls p (some .stopped)) := by
  have hcell {k : K} (hk : g.key r ≠ k) : (s.rollback p).rows.cell k = s.rows.cell k :=
    Cell.release_of_not_heldBy fun hheld => hk ((h.held_iff hp k).mp hheld)
  have hrow (k : K) : (s.rollback p).row k = s.row k := Cell.release_committed ..
  have hnot (k : K) : ¬ ((s.rollback p).rows.cell k).heldBy p :=
    Cell.not_heldBy_release (s.rows.cell k) p
  refine h.move ⟨fun k q w hq => ?_, fun k _ _ _ _ => hrow k, fun q hq => ?_⟩ hrow rfl
    (by rw [hp]; exact nofun) nofun ?_ (Log.own_rollback_self s.log p)
  · by_cases hk : g.key r = k
    · have hheld := (h.held_iff hp k).mpr hk
      refine iff_of_false (fun hl => ?_) fun hl => ?_
      · exact hq (Cell.heldBy_unique (Cell.heldBy_release ⟨_, hl, rfl⟩) hheld)
      · exact hq (Cell.heldBy_unique ⟨_, hl, rfl⟩ hheld)
    · rw [hcell hk]
  · exact Log.own_rollback_of_ne s.log p hq
  · intro k w hl
    exact absurd ⟨_, hl, rfl⟩ (hnot k)

/-- A transaction that has written nothing yet goes on, or ends. -/
theorem leave (h : g.Linearized s₀ history s calls) {k : GuardedCall E R C}
    (hp : calls p = some k) (hk : (∃ r, k = .reading r) ∨ ∃ r c, k = .writing r c)
    (hk' : ∀ r c, k' ≠ .done r c) (hk'' : ∀ r c rest, k' ≠ .logging r c rest) :
    g.Linearized s₀ history s (Function.update calls p (some k')) := by
  obtain ⟨r, rfl⟩ | ⟨r, c, rfl⟩ := hk
  · exact h.stay (h.stands p _ hp) (by rw [hp]; exact nofun) (by rw [hp]; exact nofun) hk' hk''
  · exact h.stay (h.stands p _ hp) (by rw [hp]; exact nofun) (by rw [hp]; exact nofun) hk' hk''

theorem next (h : g.Linearized s₀ history s calls) {k : GuardedCall E R C}
    (hp : calls p = some k) (answer : χ) :
    ∃ history', g.Linearized s₀ history' (g.next p answer k s).2
      (Function.update calls p (some (g.next p answer k s).1)) := by
  cases k with
  | reading r =>
      refine ⟨history, ?_⟩
      unfold GuardedWrite.next
      dsimp only
      cases g.plan r answer (s.row (g.key r)) with
      | none => exact h.leave hp (.inl ⟨r, rfl⟩) nofun nofun
      | some c => exact h.leave hp (.inl ⟨r, rfl⟩) nofun nofun
  | writing r c =>
      refine ⟨history, ?_⟩
      unfold GuardedWrite.next
      dsimp only
      cases hwrite : g.write r c (s.row (g.key r)) with
      | none => exact h.leave hp (.inr ⟨r, c, rfl⟩) nofun nofun
      | some v =>
          dsimp only
          split
          · exact System.stop_keeps h hp
          · rename_i hfree
            exact h.write hp hwrite (Bool.not_eq_false _ ▸ hfree)
  | logging r c rest =>
      cases rest with
      | nil => exact ⟨_, h.commit hp⟩
      | cons e rest => exact ⟨history, h.insert hp⟩
  | done r c => exact ⟨history, System.stop_keeps h hp⟩
  | rejected => exact ⟨history, System.stop_keeps h hp⟩
  | stopped => exact ⟨history, System.stop_keeps h hp⟩

theorem stop (h : g.Linearized s₀ history s calls) {k : GuardedCall E R C}
    (hp : calls p = some k) :
    g.Linearized s₀ history (GuardedWrite.stop p k s).2
      (Function.update calls p (some (GuardedWrite.stop p k s).1)) := by
  cases k with
  | reading r => exact h.leave hp (.inl ⟨r, rfl⟩) nofun nofun
  | writing r c => exact h.leave hp (.inr ⟨r, c, rfl⟩) nofun nofun
  | logging r c rest => exact h.rollback hp
  | done r c => exact System.stop_keeps h hp
  | rejected => exact System.stop_keeps h hp
  | stopped => exact System.stop_keeps h hp

/-- What every write hands on to the row holds of every row, when the plans made from such rows
have what the writes need. -/
theorem rows_keep (h : g.Linearized s₀ history s calls) {P : K → Option V → Prop}
    {Q : R → C → Prop} (hwrite : ∀ r c row v, Q r c → P (g.key r) row →
      g.write r c row = some v → P (g.key r) (some v))
    (hstart : ∀ k, P k (s₀.row k)) (hplans : ∀ d ∈ history, Q d.request d.plan) (k : K) :
    P k (s.row k) := by
  refine Replays.keeps g (h.row k) (hstart k) fun d hd row v hrow hv => ?_
  obtain ⟨hmem, hkey⟩ := List.mem_filter.mp hd
  have hk : g.key d.request = k := by simpa using hkey
  subst hk
  exact hwrite _ _ row v (hplans d hmem) hrow hv

end Linearized

/-- Whatever the order of the steps and wherever calls crash, the committed transactions are a
serial run of their writes, and the log is that of this run.  `P` is what the rows keep, `Q`
what the plans that are made from such rows have. -/
theorem linearized {P : K → Option V → Prop} {Q : R → C → Prop}
    (hplan : ∀ r answer row c, P (g.key r) row → g.plan r answer row = some c → Q r c)
    (hwrite : ∀ r c row v, Q r c → P (g.key r) row → g.write r c row = some v →
      P (g.key r) (some v))
    (s₀ : GuardedStore K V E) (hrows : ∀ k, P k (s₀.row k))
    (hlocks : ∀ k, (s₀.rows.cell k).lock = none) (hlog : s₀.log.pending = [])
    (es : List (Event R χ Empty)) :
    ∃ history, g.Linearized s₀ history (g.system.run (.idle s₀) es).store
        (g.system.run (.idle s₀) es).at_ ∧
      (∀ d ∈ history, Q d.request d.plan) ∧
      ∀ k, P k ((g.system.run (.idle s₀) es).store.row k) := by
  have hrun := g.system.run_invariant (I := fun s calls => ∃ history,
    g.Linearized s₀ history s calls ∧
      ∀ p k r c, calls p = some k → k.planned = some (r, c) → Q r c)
    ?_ ?_ ?_ ?_ es (w := .idle s₀) ⟨[], ?_, nofun⟩
  · obtain ⟨history, h, hplans⟩ := hrun
    have hhistory : ∀ d ∈ history, Q d.request d.plan := fun d hd =>
      hplans d.call _ _ _ ((h.done d.call d.request d.plan).mpr hd) rfl
    exact ⟨history, h, hhistory, h.rows_keep hwrite hrows hhistory⟩
  · rintro s calls p r ⟨history, h, hplans⟩ hp
    refine ⟨history, h.spawn hp r, fun q k r' c hk hc => ?_⟩
    by_cases hq : q = p
    · subst hq
      rw [Function.update_self] at hk
      cases hk
      cases hc
    · rw [Function.update_of_ne hq] at hk
      exact hplans q k r' c hk hc
  · rintro s calls p answer k ⟨history, h, hplans⟩ hp
    obtain ⟨history', h'⟩ := h.next hp answer
    have hrows' := h.rows_keep hwrite hrows fun d hd =>
      hplans d.call _ _ _ ((h.done d.call d.request d.plan).mpr hd) rfl
    refine ⟨history', h', fun q k' r' c hk hc => ?_⟩
    by_cases hq : q = p
    · subst hq
      rw [Function.update_self] at hk
      cases hk
      obtain hbefore | ⟨-, hmade⟩ := g.planned_next q answer k s hc
      · exact hplans q k r' c hp hbefore
      · exact hplan r' answer _ c (hrows' _) hmade
    · rw [Function.update_of_ne hq] at hk
      exact hplans q k' r' c hk hc
  · intro s calls o
    cases o
  · rintro s calls p k ⟨history, h, hplans⟩ hp
    refine ⟨history, h.stop hp, fun q k' r' c hk hc => ?_⟩
    by_cases hq : q = p
    · subst hq
      rw [Function.update_self] at hk
      cases hk
      exact hplans q k r' c hp (planned_stop q k s hc)
    · rw [Function.update_of_ne hq] at hk
      exact hplans q k' r' c hk hc
  · exact {
      row := fun _ => rfl
      log := (List.append_nil _).symm
      nodup := List.nodup_nil
      done := fun _ _ _ => iff_of_false nofun List.not_mem_nil
      holder := fun k q w hlock => by
        rw [World.idle_store, hlocks k] at hlock
        cases hlock
      stands := nofun
      fresh := fun q _ => by
        unfold Log.own
        rw [World.idle_store, hlog]
        rfl }

/-- A transaction that is alone with its row commits what its plan says. -/
theorem run_alone {p : Nat} {r : R} {x : χ} {c : C} {v : V}
    {w : World (GuardedStore K V E) (GuardedCall E R C)} (hp : w.tasks p = none)
    (hplan : g.plan r x (w.store.row (g.key r)) = some c)
    (hwrite : g.write r c (w.store.row (g.key r)) = some v)
    (hfree : (w.store.rows.cell (g.key r)).available p = true) :
    let es := .spawn p r :: (List.replicate ((g.entries r c).length + 3) x).map (.step p)
    (g.system.run w es).at_ p = some (.done r c) ∧
      (g.system.run w es).store.row (g.key r) = some v := by
  intro es
  have hspawn : g.system.exec w (.spawn p r) =
      { w with tasks := Function.update w.tasks p (some ⟨.reading r, false⟩) } := by
    simp only [System.exec, hp]
    rfl
  have hlogged (rest : List E) (s : GuardedStore K V E)
      (hs : (s.rows.cell (g.key r)).lock = some ⟨p, some (some v)⟩) :
      (g.system.solo p (.logging r c rest) s (List.replicate (rest.length + 1) x)).1 =
          .done r c ∧
        (g.system.solo p (.logging r c rest) s (List.replicate (rest.length + 1) x)).2.row
          (g.key r) = some v := by
    induction rest generalizing s with
    | nil => exact ⟨rfl, Cell.commit_committed_of_lock hs⟩
    | cons e rest ih => exact ih (s.insert p e) hs
  have hread : g.system.next p x (.reading r) w.store = (.writing r c, w.store) := by
    show g.next p x (.reading r) w.store = _
    unfold next
    dsimp only
    rw [hplan]
  have hwritten : g.system.next p x (.writing r c) w.store =
      (.logging r c (g.entries r c), w.store.write p (g.key r) v) := by
    show g.next p x (.writing r c) w.store = _
    unfold next
    dsimp only
    rw [hwrite]
    dsimp only
    rw [hfree]
    rfl
  have hsolo : g.system.solo p (.reading r) w.store
      (List.replicate ((g.entries r c).length + 3) x) =
        g.system.solo p (.logging r c (g.entries r c)) (w.store.write p (g.key r) v)
          (List.replicate ((g.entries r c).length + 1) x) :=
    (g.system.solo_cons hread _).trans (g.system.solo_cons hwritten _)
  have hcell : ((w.store.write p (g.key r) v).rows.cell (g.key r)).lock =
      some ⟨p, some (some v)⟩ := by
    show ((w.store.rows.set (g.key r) _).cell (g.key r)).lock = _
    rw [LockedTable.set_cell_self]
    rfl
  obtain ⟨hstore, hat⟩ := g.system.run_solo (p := p) (k := .reading r)
    (List.replicate ((g.entries r c).length + 3) x) (w := g.system.exec w (.spawn p r)) (by
      rw [hspawn]
      exact Function.update_self ..)
  obtain ⟨hdone, hrow⟩ := hlogged (g.entries r c) _ hcell
  rw [hspawn, hsolo] at hstore hat
  constructor
  · show (g.system.run (g.system.exec w (.spawn p r)) _).at_ p = _
    rw [hspawn, hat, hdone]
  · show (g.system.run (g.system.exec w (.spawn p r)) _).store.row _ = _
    rw [hspawn, hstore, hrow]

end GuardedWrite

end Lib
end ERP
