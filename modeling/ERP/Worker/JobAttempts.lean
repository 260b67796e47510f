import ERP.Worker.JobHistoryRuns
import Mathlib.Tactic.Linarith

/-!
# One row for each attempt

The attempts of a job are told apart by a number that is counted in memory.  It goes on
from one attempt to the next only if nothing between them sets it back: a restart of the
worker, or an attempt after which the job counted as done.  And an attempt whose job the
queue has dropped is not counted at all.

The row of an attempt is written by its own events, and once more by the active event of the
attempt that follows.  When the first had told of a failure already, the end it wrote down is
lost, unless the other happens to say the same.
-/

namespace ERP
namespace Worker

open Lib OrderedMap

/-- How an attempt ended; `superseded` when no event says so, and the next attempt, if
there is one, begins. -/
inductive AttemptOutcome where
  | completed (now : Int)
  | failed (failedReason : String) (now : Int)
  | superseded
  deriving DecidableEq, Repr

/-- An attempt of a job: the restarts of the worker before it, what the handler of its
active event finds and when, and how it ended. -/
structure Attempt where
  restarts : List (Option String)
  found : Option Job
  activeAt : Int
  outcome : AttemptOutcome
  deriving DecidableEq, Repr

/-- When an attempt was over, and by which failure. -/
structure AttemptEnd where
  finishedAt : Int
  failure : Option Failure
  deriving DecidableEq, Repr

namespace Attempt

def outcomeTrace (a : Attempt) : List JobTrace :=
  match a.outcome with
  | .completed now => [.event (.completed now)]
  | .failed failedReason now => [.event (.failed failedReason now)]
  | .superseded => []

/-- The restarts, the active event and the one that ends the attempt. -/
def trace (a : Attempt) : List JobTrace :=
  a.restarts.map .restart ++ .event (.active a.found a.activeAt) :: a.outcomeTrace

def maxAttempts (a : Attempt) : Nat := (a.found.bind Job.attempts).getD 1

/-- What the row of the attempt of that number should say; of the last attempt, while it
has not ended, that it is active. -/
def status (a : Attempt) (number : Nat) (last : Bool) : JobExecutionStatus :=
  match a.outcome with
  | .completed _ => .completed
  | .failed _ _ => if number < a.maxAttempts then .retrying else .failed
  | .superseded => if last then .active else .retrying

/-- Whether the job is done with this attempt: it completed, or it was the last allowed
one and failed. -/
def ends (a : Attempt) (number : Nat) : Bool :=
  match a.outcome with
  | .completed _ => true
  | .failed _ _ => a.maxAttempts ≤ number
  | .superseded => false

/-- The end that the event of the attempt tells of. -/
def ownEnd (a : Attempt) : Option AttemptEnd :=
  match a.outcome with
  | .completed now => some ⟨now, none⟩
  | .failed failedReason now => some ⟨now, some (sanitizeFailure failedReason)⟩
  | .superseded => none

/-- The end that the active event of the attempt writes down for the one before. -/
def closes (a : Attempt) : Option AttemptEnd :=
  a.found.map fun found => ⟨resolveStartedAt found a.activeAt,
    some (sanitizeFailure (found.failedReason.getD "Unknown retryable failure"))⟩

/-- What the snapshot of the attempt is in memory. -/
def snapshot (a : Attempt) (number : Nat) : Option Snapshot :=
  a.found.map fun found =>
    ⟨some found.name, number, found.attempts.getD 1, resolveStartedAt found a.activeAt,
      found.correlationId⟩

/-- The row of the attempt, with that status and that end. -/
def row (a : Attempt) (workerId : Option String) (status : JobExecutionStatus)
    (ending : Option AttemptEnd) : Option JobExecution :=
  a.found.map fun found =>
    { jobName := some found.name, workerId, status
      startedAt := resolveStartedAt found a.activeAt
      finishedAt := ending.map AttemptEnd.finishedAt
      durationMs := ending.map fun e =>
        max 0 (e.finishedAt - resolveStartedAt found a.activeAt)
      errorCategory := ending.bind fun e => e.failure.map Failure.category
      errorMessage := ending.bind fun e => e.failure.map Failure.message
      correlationId := found.correlationId }

end Attempt

/-- The service, from its first start on an empty table, ran through these attempts of
the job, and whatever else; all of their events were handled, and none was waiting when
the worker restarted. -/
structure AttemptsOf (workerId : Option String) (job : JobKey) (attempts : List Attempt)
    (steps : List HistoryStep) : Prop where
  events : ∃ restarts : List (Option String),
    trace job steps = attempts.flatMap Attempt.trace ++ restarts.map .restart
  quiet : ∀ prior workerId' rest, steps = prior ++ .restart workerId' :: rest →
    ((JobExecutionHistory.start workerId).run prior).tasks job = []
  handled : ((JobExecutionHistory.start workerId).run steps).tasks job = []

/-- The worker that runs the last of these attempts. -/
def workerOf (workerId : Option String) (attempts : List Attempt) : Option String :=
  (attempts.flatMap Attempt.restarts).foldl (fun _ workerId => workerId) workerId

/-- Each attempt has a row of its own, later ones with higher numbers, and nothing in it is of
another attempt: it says what the attempt was, which worker ran it, and how it ended by its
own event.  Only of an attempt of which no event told the end, the row says what the next
one knows of it. -/
def AttemptsRecorded (workerId : Option String) (job : JobKey) (attempts : List Attempt)
    (s : JobExecutionHistory) : Prop :=
  ∃ number : Nat → Nat, (∀ i j, i < j → j < attempts.length → number i < number j) ∧
    ∀ i (h : i < attempts.length), ∃ row,
      s.jobExecutions.get (job.queueName, job.jobId, number i) = some row ∧
      attempts[i].row (workerOf workerId (attempts.take (i + 1)))
        (attempts[i].status (i + 1) (i + 1 = attempts.length))
        (attempts[i].ownEnd.or (attempts[i + 1]?.bind Attempt.closes)) = some row

/-- The queue has the job whenever an attempt begins; the worker does not restart between
two attempts, and no attempt follows one that ended the job. -/
def Unbroken (attempts : List Attempt) : Prop :=
  ∀ prior a rest, attempts = prior ++ a :: rest → a.found.isSome ∧
    (prior ≠ [] → a.restarts = []) ∧ (rest ≠ [] → a.ends (prior.length + 1) = false)

/-- An attempt that follows one whose end was told begins at that very time, and finds the
failure that was told. -/
def EndsAgree (attempts : List Attempt) : Prop :=
  ∀ i (h : i + 1 < attempts.length) ending, attempts[i].ownEnd = some ending →
    attempts[i + 1].closes = some ending

theorem unbroken_append (attempts : List Attempt) (a : Attempt) :
    Unbroken (attempts ++ [a]) ↔ Unbroken attempts ∧ a.found.isSome ∧
      ∀ last, attempts.getLast? = some last →
        a.restarts = [] ∧ last.ends attempts.length = false := by
  constructor
  · intro h
    refine ⟨fun prior b rest heq => ?_, (h attempts a [] rfl).1, fun last hlast => ?_⟩
    · obtain ⟨hfound, hrestarts, hends⟩ := h prior b (rest ++ [a]) (by rw [heq]; simp)
      exact ⟨hfound, hrestarts, fun _ => hends (by simp)⟩
    · obtain ⟨prior, rfl⟩ := List.getLast?_eq_some_iff.mp hlast
      refine ⟨(h (prior ++ [last]) a [] rfl).2.1 (by simp), ?_⟩
      have hends := (h prior last [a] (by simp)).2.2 (List.cons_ne_nil a [])
      rw [List.length_append]
      exact hends
  · rintro ⟨h, hfound, hlast⟩ prior b rest heq
    rcases List.eq_nil_or_concat' rest with rfl | ⟨rest', c, rfl⟩
    · obtain ⟨rfl, hb⟩ := List.append_inj' heq rfl
      cases hb
      refine ⟨hfound, fun hne => ?_, fun hne => absurd rfl hne⟩
      exact (hlast _ (List.getLast?_eq_some_getLast hne)).1
    · have hsplit : prior ++ b :: (rest' ++ [c]) = (prior ++ b :: rest') ++ [c] := by simp
      obtain ⟨rfl, -⟩ := List.append_inj' (heq.trans hsplit) rfl
      obtain ⟨hb, hrestarts, hends⟩ := h prior b rest' rfl
      refine ⟨hb, hrestarts, fun _ => ?_⟩
      by_cases hrest : rest' = []
      · subst hrest
        have hlength : (prior ++ [b]).length = prior.length + 1 := List.length_append
        rw [← hlength]
        exact (hlast b List.getLast?_concat).2
      · exact hends hrest

/-! ## Handlers that run to their end -/

namespace JobView

variable {v : JobView}

theorem complete_active (v : JobView) (found : Job) (now : Int) :
    v.complete (.handle (.active (some found) now)) =
      match v.snapshot.filter fun previous =>
          previous.attemptNumber < v.attemptNumber.getD 0 + 1 with
      | none =>
          { v with attemptNumber := some (v.attemptNumber.getD 0 + 1) }.startAttempt found
            (v.attemptNumber.getD 0 + 1) (resolveStartedAt found now)
      | some previous =>
          ({ v with attemptNumber := some (v.attemptNumber.getD 0 + 1) }.persist
            (.ended v.workerId previous .retrying (resolveStartedAt found now)
              (some (sanitizeFailure
                (found.failedReason.getD "Unknown retryable failure"))))).startAttempt found
                  (v.attemptNumber.getD 0 + 1) (resolveStartedAt found now) := by
  unfold complete runPart handleActive
  dsimp only
  generalize v.snapshot.filter _ = previous
  cases previous <;> rfl

theorem complete_completed (v : JobView) (now : Int) :
    v.complete (.handle (.completed now)) =
      match v.snapshot with
      | none => v
      | some snapshot => (v.persist (.ended v.workerId snapshot .completed now none)).forget := by
  unfold complete runPart handleCompleted
  dsimp only
  cases v.snapshot <;> rfl

theorem complete_failed (v : JobView) (failedReason : String) (now : Int) :
    v.complete (.handle (.failed failedReason now)) =
      match v.snapshot with
      | none => v
      | some snapshot =>
          let written := v.persist (.ended v.workerId snapshot snapshot.failedStatus now
            (some (sanitizeFailure failedReason)))
          if snapshot.failedStatus = .failed then written.forget else written := by
  unfold complete runPart handleFailed
  dsimp only
  cases v.snapshot with
  | none => rfl
  | some snapshot =>
      dsimp only
      by_cases h : snapshot.failedStatus = .failed
      · rw [if_pos h, if_pos h]
      · rw [if_neg h, if_neg h]

/-- Every number that is known of is below a bound. -/
structure Below (bound : Nat) (v : JobView) : Prop where
  rows : ∀ n, v.row n ≠ none → 0 < n ∧ n < bound
  number : v.attemptNumber.getD 0 < bound
  snapshot : ∀ snapshot, v.snapshot = some snapshot →
    0 < snapshot.attemptNumber ∧ snapshot.attemptNumber < bound

variable {bound : Nat}

theorem Below.mono (h : v.Below bound) : v.Below (bound + 1) where
  rows n hn := ⟨(h.rows n hn).1, Nat.lt_succ_of_lt (h.rows n hn).2⟩
  number := Nat.lt_succ_of_lt h.number
  snapshot sn hsn := ⟨(h.snapshot sn hsn).1, Nat.lt_succ_of_lt (h.snapshot sn hsn).2⟩

theorem Below.persist (h : v.Below bound) (args : ExecutionArgs)
    (hargs : 0 < args.attemptNumber ∧ args.attemptNumber < bound) :
    (v.persist args).Below bound where
  rows n hn := by
    by_cases heq : n = args.attemptNumber
    · rw [heq]
      exact hargs
    · refine h.rows n ?_
      have hrow : (v.persist args).row n = v.row n := Function.update_of_ne heq _ _
      rw [← hrow]
      exact hn
  number := h.number
  snapshot := h.snapshot

theorem Below.forget (h : v.Below bound) : v.forget.Below bound where
  rows := h.rows
  number := Nat.zero_lt_of_lt h.number
  snapshot sn hsn := Option.some_ne_none sn hsn.symm |>.elim

theorem Below.restart (h : v.Below bound) (workerId : Option String) :
    (v.restart workerId).Below bound where
  rows := h.rows
  number := Nat.zero_lt_of_lt h.number
  snapshot sn hsn := Option.some_ne_none sn hsn.symm |>.elim

theorem Below.startAttempt (h : v.Below bound) (found : Job) {number : Nat} (startedAt : Int)
    (hnumber : 0 < number ∧ number < bound) :
    (v.startAttempt found number startedAt).Below bound := by
  have hsnapshot : ({ v with
      snapshot := some ⟨some found.name, number, found.attempts.getD 1, startedAt,
        found.correlationId⟩ } : JobView).Below bound := by
    refine ⟨h.rows, h.number, fun sn hsn => ?_⟩
    cases hsn
    exact hnumber
  exact hsnapshot.persist (.started v.workerId found number startedAt) hnumber

/-- An attempt whose number has room below the bound. -/
theorem Below.active (h : v.Below bound) (found : Option Job) (now : Int)
    (hroom : found.isSome → v.attemptNumber.getD 0 + 1 < bound) :
    (v.complete (.handle (.active found now))).Below bound := by
  cases found with
  | none => exact h
  | some found =>
      have hnumber := hroom rfl
      have hcounted : ({ v with
          attemptNumber := some (v.attemptNumber.getD 0 + 1) } : JobView).Below bound :=
        ⟨h.rows, hnumber, h.snapshot⟩
      rw [complete_active]
      cases hprevious : v.snapshot.filter fun previous =>
          previous.attemptNumber < v.attemptNumber.getD 0 + 1 with
      | none => exact hcounted.startAttempt found _ ⟨Nat.succ_pos _, hnumber⟩
      | some previous =>
          exact (hcounted.persist _ (h.snapshot previous
            (Option.filter_eq_some_iff.mp hprevious).1)).startAttempt found _
              ⟨Nat.succ_pos _, hnumber⟩

theorem Below.outcome (h : v.Below bound) (a : Attempt) :
    (a.outcomeTrace.foldl apply v).Below bound := by
  unfold Attempt.outcomeTrace
  cases a.outcome with
  | completed now =>
      show (v.complete (.handle (.completed now))).Below bound
      rw [complete_completed]
      cases hsnapshot : v.snapshot with
      | none => exact h
      | some snapshot => exact (h.persist _ (h.snapshot snapshot hsnapshot)).forget
  | failed failedReason now =>
      show (v.complete (.handle (.failed failedReason now))).Below bound
      rw [complete_failed]
      cases hsnapshot : v.snapshot with
      | none => exact h
      | some snapshot =>
          dsimp only
          have hwritten := h.persist (.ended v.workerId snapshot snapshot.failedStatus now
            (some (sanitizeFailure failedReason))) (h.snapshot snapshot hsnapshot)
          split
          · exact hwritten.forget
          · exact hwritten
  | superseded => exact h

/-- Restarts leave the rows, and forget the rest. -/
theorem foldl_restart (restarts : List (Option String)) (v : JobView) :
    ((restarts.map JobTrace.restart).foldl apply v).row = v.row ∧
      (restarts ≠ [] → ((restarts.map JobTrace.restart).foldl apply v).snapshot = none ∧
        ((restarts.map JobTrace.restart).foldl apply v).attemptNumber = none) ∧
      ∀ bound, v.Below bound → ((restarts.map JobTrace.restart).foldl apply v).Below bound := by
  induction restarts generalizing v with
  | nil => exact ⟨rfl, fun h => absurd rfl h, fun bound h => h⟩
  | cons workerId restarts ih =>
      obtain ⟨hrow, hforgotten, hbelow⟩ := ih (v.restart workerId)
      refine ⟨hrow, fun _ => ?_, fun bound h => hbelow bound (h.restart workerId)⟩
      cases restarts with
      | nil => exact ⟨rfl, rfl⟩
      | cons next rest => exact hforgotten (List.cons_ne_nil next rest)

/-! ## Attempts that are told apart -/

/-- The row of that number is the one of the attempt, with that status and end. -/
def HasRow (v : JobView) (number : Nat) (a : Attempt) (workerId : Option String)
    (status : JobExecutionStatus) (ending : Option AttemptEnd) : Prop :=
  ∃ row, v.row number = some row ∧ a.row workerId status ending = some row

/-- The attempt is the one in memory. -/
structure Current (v : JobView) (number : Nat) (a : Attempt) : Prop where
  counted : v.attemptNumber = some number
  snapshot : ∃ snapshot, v.snapshot = some snapshot ∧ a.snapshot number = some snapshot

/-- Nothing of the job is in memory. -/
def Forgotten (v : JobView) : Prop := v.snapshot = none ∧ v.attemptNumber = none

/-- The end that the row of an attempt says in the end: that of the next attempt, when there
is one, whatever its own event said. -/
def written (a : Attempt) : Option Attempt → Option AttemptEnd
  | some next => next.closes
  | none => a.ownEnd

/-- The attempts have the rows from one on, and the last is in memory unless the job
ended with it. -/
structure Recorded (workerId : Option String) (attempts : List Attempt) (v : JobView) : Prop where
  rows : ∀ i (h : i < attempts.length), v.HasRow (i + 1) attempts[i]
    (workerOf workerId (attempts.take (i + 1)))
    (attempts[i].status (i + 1) (i + 1 = attempts.length)) (written attempts[i] attempts[i + 1]?)
  worker : v.workerId = workerOf workerId attempts
  fresh : attempts = [] → v.Forgotten
  ended : ∀ last, attempts.getLast? = some last → last.ends attempts.length = true → v.Forgotten
  current : ∀ last, attempts.getLast? = some last → last.ends attempts.length = false →
    v.Current attempts.length last

variable {a : Attempt} {number : Nat} {workerId : Option String} {status : JobExecutionStatus}
  {ending : Option AttemptEnd}

theorem HasRow.of_row {w : JobView} (h : v.HasRow number a workerId status ending)
    (hrow : w.row number = v.row number) : w.HasRow number a workerId status ending := by
  unfold HasRow
  rw [hrow]
  exact h

/-- The end of an attempt is written into its row, over an end that was there before or, when
no failure is told, where there was none. -/
theorem HasRow.ended (h : v.HasRow number a v.workerId status ending) {snapshot : Snapshot}
    (hsnapshot : a.snapshot number = some snapshot) (next : JobExecutionStatus) (now : Int)
    (failure : Option Failure) (hfailure : failure.isSome ∨ ending = none) :
    (v.persist (.ended v.workerId snapshot next now failure)).HasRow number a v.workerId next
      (some ⟨now, failure⟩) := by
  obtain ⟨row, hrow, hown⟩ := h
  obtain ⟨found, hfound, rfl⟩ := Option.map_eq_some_iff.mp hsnapshot
  unfold Attempt.row at hown
  rw [hfound, Option.map_some, Option.some.injEq] at hown
  subst hown
  refine ⟨_, Function.update_self _ _ _, ?_⟩
  unfold Attempt.row
  rw [hfound, Option.map_some]
  show some _ = some (ExecutionArgs.upserted _ (v.row number))
  rw [hrow]
  cases failure with
  | some failure => simp [ExecutionArgs.upserted, ExecutionArgs.ended]
  | none =>
      obtain h | rfl := hfailure
      · cases h
      · simp [ExecutionArgs.upserted, ExecutionArgs.ended]

/-- A new attempt gets the next row and is the one in memory. -/
theorem startAttempt_spec (v : JobView) {found : Job} (hfound : a.found = some found)
    (number : Nat) (hnumber : v.attemptNumber = some number) (hnew : v.row number = none) :
    (v.startAttempt found number (resolveStartedAt found a.activeAt)).HasRow number a v.workerId
        .active none ∧
      (v.startAttempt found number (resolveStartedAt found a.activeAt)).Current number a ∧
      ∀ n, n ≠ number →
        (v.startAttempt found number (resolveStartedAt found a.activeAt)).row n = v.row n := by
  refine ⟨⟨_, Function.update_self _ _ _, ?_⟩, ⟨hnumber, _, rfl, ?_⟩,
    fun n hn => Function.update_of_ne hn _ _⟩
  · show a.row v.workerId .active none = some (ExecutionArgs.upserted _ (v.row number))
    unfold Attempt.row
    rw [hnew, hfound]
    rfl
  · unfold Attempt.snapshot
    rw [hfound]
    rfl

theorem snapshot_facts {snapshot : Snapshot} (h : a.snapshot number = some snapshot) :
    snapshot.attemptNumber = number ∧ snapshot.maxAttempts = a.maxAttempts := by
  obtain ⟨found, hfound, rfl⟩ := Option.map_eq_some_iff.mp h
  refine ⟨rfl, ?_⟩
  unfold Attempt.maxAttempts
  rw [hfound]
  rfl

/-- The event that ends the attempt in memory. -/
theorem Current.outcome (h : v.Current number a)
    (hrow : v.HasRow number a v.workerId .active none) :
    (a.outcomeTrace.foldl apply v).HasRow number a v.workerId (a.status number true) a.ownEnd ∧
      (∀ n, n ≠ number → (a.outcomeTrace.foldl apply v).row n = v.row n) ∧
      (a.ends number = true → (a.outcomeTrace.foldl apply v).Forgotten) ∧
      (a.ends number = false → (a.outcomeTrace.foldl apply v).Current number a) := by
  obtain ⟨snapshot, hsnapshot, hown⟩ := h.snapshot
  obtain ⟨rfl, hmax⟩ := snapshot_facts hown
  unfold Attempt.outcomeTrace Attempt.status Attempt.ends Attempt.ownEnd
  cases a.outcome with
  | completed now =>
      dsimp only
      rw [List.foldl_cons, List.foldl_nil]
      have happly : v.apply (.event (.completed now)) = v.complete (.handle (.completed now)) := rfl
      rw [happly, complete_completed, hsnapshot]
      exact ⟨hrow.ended hown .completed now none (.inr rfl), fun n hn =>
        Function.update_of_ne hn _ _,
        fun _ => ⟨rfl, rfl⟩, fun h => absurd h Bool.false_ne_true.symm⟩
  | failed failedReason now =>
      dsimp only
      rw [List.foldl_cons, List.foldl_nil]
      have happly : v.apply (.event (.failed failedReason now)) =
          v.complete (.handle (.failed failedReason now)) := rfl
      have hfailure := hrow.ended hown snapshot.failedStatus now
        (some (sanitizeFailure failedReason)) (.inl rfl)
      rw [happly, complete_failed, hsnapshot]
      unfold Snapshot.failedStatus at hfailure ⊢
      dsimp only
      rw [hmax] at hfailure ⊢
      by_cases hlast : snapshot.attemptNumber < a.maxAttempts
      · rw [if_pos hlast] at hfailure ⊢
        rw [if_neg (by decide)]
        refine ⟨hfailure, fun n hn => Function.update_of_ne hn _ _, fun hends => ?_, fun _ => ?_⟩
        · exact absurd (of_decide_eq_true hends) (Nat.not_le.mpr hlast)
        · exact ⟨h.counted, snapshot, hsnapshot, hown⟩
      · rw [if_neg hlast] at hfailure ⊢
        rw [if_pos rfl]
        refine ⟨hfailure, fun n hn => Function.update_of_ne hn _ _, fun _ => ⟨rfl, rfl⟩,
          fun hends => ?_⟩
        exact absurd (Nat.not_lt.mp hlast) (of_decide_eq_false hends)
  | superseded => exact ⟨hrow, fun n _ => rfl, fun h => absurd h Bool.false_ne_true,
      fun _ => h⟩

theorem status_of_continues (h : a.ends number = false) :
    a.status number false = .retrying := by
  unfold Attempt.ends at h
  unfold Attempt.status
  cases houtcome : a.outcome with
  | completed now =>
      rw [houtcome] at h
      exact absurd h Bool.false_ne_true.symm
  | failed failedReason now =>
      rw [houtcome] at h
      exact if_pos (Nat.not_le.mp (of_decide_eq_false h))
  | superseded => rfl

variable {attempts : List Attempt}

theorem trace_foldl (a : Attempt) (v : JobView) :
    a.trace.foldl apply v = a.outcomeTrace.foldl apply
      (((a.restarts.map JobTrace.restart).foldl apply v).complete
        (.handle (.active a.found a.activeAt))) := by
  unfold Attempt.trace
  rw [List.foldl_append]
  rfl

/-- Only a restart changes the worker. -/
theorem complete_workerId (v : JobView) (event : JobEvent) :
    (v.complete (.handle event)).workerId = v.workerId := by
  cases event with
  | active found now =>
      cases found with
      | none => rfl
      | some found =>
          rw [complete_active]
          split <;> rfl
  | completed now =>
      rw [complete_completed]
      split <;> rfl
  | failed failedReason now =>
      rw [complete_failed]
      split
      · rfl
      · dsimp only
        split <;> rfl

theorem trace_workerId (a : Attempt) (v : JobView) : (a.trace.foldl apply v).workerId =
    a.restarts.foldl (fun _ workerId => workerId) v.workerId := by
  have hrestarts (restarts : List (Option String)) (v : JobView) :
      ((restarts.map JobTrace.restart).foldl apply v).workerId =
        restarts.foldl (fun _ workerId => workerId) v.workerId := by
    induction restarts generalizing v with
    | nil => rfl
    | cons workerId rest ih => exact ih (v.restart workerId)
  have houtcome (v : JobView) : (a.outcomeTrace.foldl apply v).workerId = v.workerId := by
    unfold Attempt.outcomeTrace
    cases a.outcome with
    | completed now => exact v.complete_workerId _
    | failed failedReason now => exact v.complete_workerId _
    | superseded => rfl
  rw [trace_foldl, houtcome, complete_workerId, hrestarts]

theorem workerOf_append (workerId : Option String) (attempts : List Attempt) (a : Attempt) :
    workerOf workerId (attempts ++ [a]) =
      a.restarts.foldl (fun _ workerId => workerId) (workerOf workerId attempts) := by
  unfold workerOf
  rw [List.flatMap_append, List.foldl_append, List.flatMap_singleton]

/-- The active event of an attempt that goes on where the ones before it ended. -/
theorem Recorded.active (h : v.Recorded workerId attempts) (hbelow : v.Below (attempts.length + 1))
    {found : Job} (hfound : a.found = some found)
    (hlast : ∀ last, attempts.getLast? = some last →
      a.restarts = [] ∧ last.ends attempts.length = false) :
    ∃ w, w = ((a.restarts.map JobTrace.restart).foldl apply v).complete
        (.handle (.active a.found a.activeAt)) ∧
      w.HasRow (attempts.length + 1) a w.workerId .active none ∧
      w.Current (attempts.length + 1) a ∧
      ∀ i (hi : i < attempts.length), w.HasRow (i + 1) attempts[i]
        (workerOf workerId (attempts.take (i + 1))) (attempts[i].status (i + 1) false)
        (written attempts[i] (attempts ++ [a])[i + 1]?) := by
  have hnone (v' : JobView) (hv' : v'.Below (attempts.length + 1)) :
      v'.row (attempts.length + 1) = none := by
    by_contra hrow
    exact Nat.lt_irrefl _ (hv'.rows _ hrow).2
  refine ⟨_, rfl, ?_⟩
  rw [hfound, complete_active]
  rcases List.eq_nil_or_concat' attempts with rfl | ⟨prior, last, rfl⟩
  · obtain ⟨hsnapshot, hnumber⟩ := h.fresh rfl
    have hforgotten : ((a.restarts.map JobTrace.restart).foldl apply v).Forgotten := by
      by_cases hrestarts : a.restarts = []
      · rw [hrestarts]
        exact ⟨hsnapshot, hnumber⟩
      · exact (foldl_restart a.restarts v).2.1 hrestarts
    rw [hforgotten.1, hforgotten.2]
    have hfree : ((a.restarts.map JobTrace.restart).foldl apply v).row 1 = none :=
      hnone _ ((foldl_restart a.restarts v).2.2 _ hbelow)
    obtain ⟨hrow, hcurrent, -⟩ := startAttempt_spec
      { (a.restarts.map JobTrace.restart).foldl apply v with attemptNumber := some 1 } hfound 1 rfl
      hfree
    exact ⟨hrow, hcurrent, fun i hi => absurd hi (Nat.not_lt_zero i)⟩
  · obtain ⟨hrestarts, hends⟩ := hlast last List.getLast?_concat
    have hcurrent := h.current last List.getLast?_concat hends
    obtain ⟨snapshot, hsnapshot, hown⟩ := hcurrent.snapshot
    obtain ⟨hnumber, -⟩ := snapshot_facts hown
    have hprevious : v.snapshot.filter (fun previous =>
        previous.attemptNumber < (prior ++ [last]).length + 1) = some snapshot := by
      rw [hsnapshot]
      exact if_pos (decide_eq_true (by omega))
    have hkept : (([] : List (Option String)).map JobTrace.restart).foldl apply v = v := rfl
    rw [hrestarts, hkept, hcurrent.counted, Option.getD_some, hprevious]
    dsimp only
    have hcounted : ({ v with
        attemptNumber := some ((prior ++ [last]).length + 1) } : JobView).row
          ((prior ++ [last]).length + 1) = none := hnone v hbelow
    have hfree : ({ v with attemptNumber := some ((prior ++ [last]).length + 1) }.persist
        (.ended v.workerId snapshot .retrying (resolveStartedAt found a.activeAt)
          (some (sanitizeFailure (found.failedReason.getD "Unknown retryable failure"))))).row
          ((prior ++ [last]).length + 1) = none := by
      refine (Function.update_of_ne ?_ _ _).trans hcounted
      show (prior ++ [last]).length + 1 ≠ snapshot.attemptNumber
      omega
    obtain ⟨hrow, hnew, hothers⟩ := startAttempt_spec _ hfound ((prior ++ [last]).length + 1) rfl
      hfree
    refine ⟨hrow, hnew, fun i hi => ?_⟩
    have hold := h.rows i hi
    refine HasRow.of_row ?_ (hothers (i + 1) (by omega))
    by_cases hi' : i + 1 = (prior ++ [last]).length
    · have hlast' : (prior ++ [last])[i] = last := by
        have hlength : (prior ++ [last]).length = prior.length + 1 := List.length_append
        obtain rfl : i = prior.length := by omega
        exact List.getElem_concat_length rfl _
      have hnext : (prior ++ [last] ++ [a])[i + 1]? = some a := by
        rw [hi']
        exact List.getElem?_concat_length
      have hclosed : written last (some a) = some ⟨resolveStartedAt found a.activeAt,
          some (sanitizeFailure (found.failedReason.getD "Unknown retryable failure"))⟩ := by
        show a.closes = _
        unfold Attempt.closes
        rw [hfound]
        rfl
      have hall : (prior ++ [last]).take (i + 1) = prior ++ [last] := by
        rw [hi']
        exact List.take_length
      rw [hall, ← h.worker, hlast'] at hold
      rw [hlast', hnext, hclosed, hall, ← h.worker, hi', status_of_continues hends]
      rw [hi'] at hold
      exact HasRow.ended (v := { v with
        attemptNumber := some ((prior ++ [last]).length + 1) }) hold hown .retrying _ _ (.inl rfl)
    · have hnext : (prior ++ [last] ++ [a])[i + 1]? = (prior ++ [last])[i + 1]? :=
        List.getElem?_append_left (by omega)
      rw [decide_eq_false hi', ← hnext] at hold
      refine hold.of_row (Function.update_of_ne ?_ _ _)
      show i + 1 ≠ snapshot.attemptNumber
      omega

/-- An attempt that goes on where the ones before it ended is recorded like them. -/
theorem Recorded.append (h : v.Recorded workerId attempts) (hbelow : v.Below (attempts.length + 1))
    {found : Job} (hfound : a.found = some found)
    (hlast : ∀ last, attempts.getLast? = some last →
      a.restarts = [] ∧ last.ends attempts.length = false) :
    (a.trace.foldl apply v).Recorded workerId (attempts ++ [a]) := by
  obtain ⟨w, hw, hrow, hcurrent, hrows⟩ := h.active hbelow hfound hlast
  obtain ⟨hnew, hothers, hended, hgoes⟩ := hcurrent.outcome hrow
  have hlength : (attempts ++ [a]).length = attempts.length + 1 := List.length_append
  have hlastIs (last : Attempt) (hl : (attempts ++ [a]).getLast? = some last) : a = last :=
    Option.some.inj (List.getLast?_concat.symm.trans hl)
  have hworker : (a.trace.foldl apply v).workerId = workerOf workerId (attempts ++ [a]) := by
    rw [trace_workerId, h.worker, workerOf_append]
  have hsame : w.workerId = workerOf workerId (attempts ++ [a]) := by
    rw [← hworker, trace_foldl, ← hw]
    unfold Attempt.outcomeTrace
    cases a.outcome with
    | completed now => exact (w.complete_workerId _).symm
    | failed failedReason now => exact (w.complete_workerId _).symm
    | superseded => rfl
  refine ⟨?_, hworker, ?_, ?_, ?_⟩ <;> rw [trace_foldl, ← hw]
  · intro i hi
    by_cases hi' : i < attempts.length
    · have hget : (attempts ++ [a])[i] = attempts[i] := List.getElem_append_left hi'
      have hnot : ¬ i + 1 = (attempts ++ [a]).length := by omega
      have htake : (attempts ++ [a]).take (i + 1) = attempts.take (i + 1) :=
        List.take_append_of_le_length hi'
      rw [hget, decide_eq_false hnot, htake]
      exact (hrows i hi').of_row (hothers (i + 1) (by omega))
    · obtain rfl : i = attempts.length := by omega
      have hget : (attempts ++ [a])[attempts.length] = a := List.getElem_concat_length rfl _
      have hnone : (attempts ++ [a])[attempts.length + 1]? = none :=
        List.getElem?_eq_none (by omega)
      have hall : (attempts ++ [a]).take (attempts.length + 1) = attempts ++ [a] :=
        List.take_of_length_le (by omega)
      rw [hget, decide_eq_true hlength.symm, hnone, hall, ← hsame]
      exact hnew
  · intro hnil
    exact absurd hnil (List.append_ne_nil_of_right_ne_nil _ (List.cons_ne_nil a []))
  · intro last hl hends
    rw [hlength] at hends
    obtain rfl := hlastIs last hl
    exact hended hends
  · intro last hl hends
    rw [hlength] at hends ⊢
    obtain rfl := hlastIs last hl
    exact hgoes hends

/-- An attempt takes at most one more number; none, if what is in memory leaves room. -/
theorem Below.attempt (h : v.Below bound) (a : Attempt)
    (hroom : a.found.isSome →
      ((a.restarts.map JobTrace.restart).foldl apply v).attemptNumber.getD 0 + 1 < bound) :
    (a.trace.foldl apply v).Below bound := by
  rw [trace_foldl]
  exact (((foldl_restart a.restarts v).2.2 bound h).active a.found a.activeAt hroom).outcome a

theorem Forgotten.restarts (h : v.Forgotten) (restarts : List (Option String)) :
    ((restarts.map JobTrace.restart).foldl apply v).Forgotten := by
  by_cases hrestarts : restarts = []
  · rw [hrestarts]
    exact h
  · exact (foldl_restart restarts v).2.1 hrestarts

/-- Unbroken attempts are recorded; of others there are more than numbers were given. -/
theorem recorded_or_short (workerId : Option String) (attempts : List Attempt) :
    ((attempts.flatMap Attempt.trace).foldl apply (start workerId)).Below (attempts.length + 1) ∧
      (Unbroken attempts →
        ((attempts.flatMap Attempt.trace).foldl apply (start workerId)).Recorded workerId
          attempts) ∧
      (¬ Unbroken attempts →
        ((attempts.flatMap Attempt.trace).foldl apply (start workerId)).Below
          attempts.length) := by
  induction attempts using List.reverseRecOn with
  | nil =>
      have hfresh : (start workerId).Forgotten := ⟨rfl, rfl⟩
      refine ⟨⟨fun n hn => absurd rfl hn, Nat.zero_lt_one, fun sn hsn =>
        Option.some_ne_none sn hsn.symm |>.elim⟩, fun _ => ?_, fun h => absurd ?_ h⟩
      · exact ⟨fun i hi => absurd hi (Nat.not_lt_zero i), rfl, fun _ => hfresh,
          fun last _ _ => hfresh, fun last hl _ => Option.some_ne_none last hl.symm |>.elim⟩
      · intro prior a rest heq
        exact absurd heq.symm (List.append_ne_nil_of_right_ne_nil _ (List.cons_ne_nil a rest))
  | append_singleton attempts a ih =>
      obtain ⟨hbelow, hrecorded, hshort⟩ := ih
      have hall : ((attempts ++ [a]).flatMap Attempt.trace).foldl apply (start workerId) =
          a.trace.foldl apply ((attempts.flatMap Attempt.trace).foldl apply (start workerId)) := by
        rw [List.flatMap_append, List.foldl_append, List.flatMap_singleton]
      rw [hall]
      generalize (attempts.flatMap Attempt.trace).foldl apply (start workerId) = v at *
      have hlength : (attempts ++ [a]).length = attempts.length + 1 := List.length_append
      have hrestarted := (foldl_restart a.restarts v).2.2 _ hbelow
      rw [hlength]
      refine ⟨hbelow.mono.attempt a fun _ => Nat.succ_lt_succ hrestarted.number, fun h => ?_,
        fun h => ?_⟩
      · obtain ⟨hprior, hfound, hlast⟩ := (unbroken_append attempts a).mp h
        obtain ⟨found, hfound⟩ := Option.isSome_iff_exists.mp hfound
        exact (hrecorded hprior).append hbelow hfound hlast
      · by_cases hprior : Unbroken attempts
        · refine hbelow.attempt a fun hfound => ?_
          have hforgotten : attempts ≠ [] ∧
              ((a.restarts.map JobTrace.restart).foldl apply v).Forgotten := by
            by_contra hnot
            refine h ((unbroken_append attempts a).mpr ⟨hprior, hfound, fun last hl => ?_⟩)
            have hne : attempts ≠ [] := by
              rintro rfl
              exact Option.some_ne_none last hl.symm
            constructor
            · by_contra hrestarts
              exact hnot ⟨hne, (foldl_restart a.restarts v).2.1 hrestarts⟩
            · by_contra hends
              exact hnot ⟨hne, ((hrecorded hprior).ended last hl
                (Bool.eq_true_of_not_eq_false hends)).restarts a.restarts⟩
          have hpos := List.length_pos_iff.mpr hforgotten.1
          rw [hforgotten.2.2, Option.getD_none]
          omega
        · have hless := hshort hprior
          have hnumber := ((foldl_restart a.restarts v).2.2 _ hless).number
          exact hless.mono.attempt a fun _ => Nat.succ_lt_succ hnumber

end JobView

/-! ## The history -/

/-- The rows of a job are those that its events make, whatever ran in between. -/
theorem rows_of_attempts {workerId : Option String} {job : JobKey} {attempts : List Attempt}
    {steps : List HistoryStep} (h : AttemptsOf workerId job attempts steps) (number : Nat) :
    ((JobExecutionHistory.start workerId).run steps).jobExecutions.get
        (job.queueName, job.jobId, number) =
      ((attempts.flatMap Attempt.trace).foldl JobView.apply (JobView.start workerId)).row
        number := by
  obtain ⟨restarts, hevents⟩ := h.events
  have hsettled := settled_run job steps (.start workerId) h.quiet
  unfold JobExecutionHistory.settled at hsettled
  rw [h.handled, hevents, List.foldl_append] at hsettled
  have hrow := congrFun (congrArg JobView.row hsettled) number
  rw [(JobView.foldl_restart restarts _).1] at hrow
  exact hrow

/-- The row of an attempt tells its ends apart. -/
theorem row_injective {a : Attempt} (hfound : a.found.isSome) {workerId : Option String}
    {status : JobExecutionStatus} {ending ending' : Option AttemptEnd}
    (h : a.row workerId status ending = a.row workerId status ending') : ending = ending' := by
  obtain ⟨found, hfound⟩ := Option.isSome_iff_exists.mp hfound
  unfold Attempt.row at h
  rw [hfound, Option.map_some, Option.map_some, Option.some.injEq, JobExecution.mk.injEq] at h
  obtain ⟨-, -, -, -, hfinished, -, hcategory, hmessage, -⟩ := h
  have hfailure (failure failure' : Option Failure)
      (hc : failure.map Failure.category = failure'.map Failure.category)
      (hm : failure.map Failure.message = failure'.map Failure.message) : failure = failure' := by
    cases failure with
    | none =>
        cases failure' with
        | none => rfl
        | some told => exact (Option.some_ne_none _ hc.symm).elim
    | some told =>
        cases failure' with
        | none => exact (Option.some_ne_none _ hc).elim
        | some told' =>
            exact congrArg some (Failure.mk.injEq _ _ _ _ ▸
              ⟨Option.some.inj hc, Option.some.inj hm⟩)
  cases ending with
  | none =>
      cases ending' with
      | none => rfl
      | some e' => exact (Option.some_ne_none _ hfinished.symm).elim
  | some e =>
      cases ending' with
      | none => exact (Option.some_ne_none _ hfinished).elim
      | some e' =>
          obtain ⟨finishedAt, failure⟩ := e
          obtain ⟨finishedAt', failure'⟩ := e'
          obtain rfl : finishedAt = finishedAt' := Option.some.inj hfinished
          rw [hfailure failure failure' hcategory hmessage]

/-- In unbroken attempts, what the row of an attempt says in the end is what it should say
exactly when the end its own event told is the one the next attempt wrote. -/
theorem endsAgree_iff (attempts : List Attempt) :
    EndsAgree attempts ↔ ∀ i (h : i < attempts.length),
      JobView.written attempts[i] attempts[i + 1]? =
        attempts[i].ownEnd.or (attempts[i + 1]?.bind Attempt.closes) := by
  constructor
  · intro h i hi
    by_cases hnext : i + 1 < attempts.length
    · rw [List.getElem?_eq_getElem hnext]
      cases hown : attempts[i].ownEnd with
      | none => rfl
      | some ending => exact h i hnext ending hown
    · rw [List.getElem?_eq_none (Nat.not_lt.mp hnext)]
      exact Option.or_none.symm
  · intro h i hi ending hending
    have hi' := h i (Nat.lt_of_succ_lt hi)
    rw [List.getElem?_eq_getElem hi, hending] at hi'
    exact hi'

/-- Numbers that grow from one attempt to the next grow by one at least. -/
theorem number_add_le {bound : Nat} {number : Nat → Nat}
    (h : ∀ i j, i < j → j < bound → number i < number j) (i d : Nat) (hd : i + d < bound) :
    number i + d ≤ number (i + d) := by
  induction d with
  | zero => exact Nat.le_refl _
  | succ d ih =>
      have hstep := h (i + d) (i + (d + 1)) (Nat.lt_succ_self _) hd
      have hprior := ih (by omega)
      omega

def triedJob : JobKey := ⟨.emailQueue, "7"⟩

def foundJob : Job := ⟨"email.send", some 5, some 1, some 3, none, none⟩

def retriedJob : Job := ⟨"email.send", some 8, some 1, some 3, some "stalled", none⟩

/-- It stalls and is tried again; the event of another job comes in between. -/
def triedAttempts : List Attempt :=
  [⟨[], some foundJob, 5, .superseded⟩, ⟨[], some retriedJob, 8, .completed 9⟩]

def triedSteps : List HistoryStep :=
  [.deliver triedJob (.active (some foundJob) 5), .advance triedJob,
    .deliver ⟨.pdfQueue, "7"⟩ (.active none 6), .advance triedJob,
    .deliver triedJob (.active (some retriedJob) 8), .advance triedJob,
    .deliver triedJob (.completed 9), .advance triedJob, .advance triedJob, .advance triedJob]

/-- It fails, and the worker restarts before it is tried again. -/
def restartedAttempts : List Attempt :=
  [⟨[], some foundJob, 5, .failed "timeout" 6⟩, ⟨[none], some retriedJob, 8, .completed 9⟩]

def restartedSteps : List HistoryStep :=
  [.deliver triedJob (.active (some foundJob) 5), .advance triedJob,
    .deliver triedJob (.failed "timeout" 6), .advance triedJob, .restart none,
    .deliver triedJob (.active (some retriedJob) 8), .advance triedJob,
    .deliver triedJob (.completed 9), .advance triedJob, .advance triedJob]

/-- Without a restart both have their rows, and the second writes when it begins, and the
failure the queue kept, into the row of the first. -/
example : ((JobExecutionHistory.start none).run
    (restartedSteps.eraseP fun step => step = .restart none)).jobExecutions.get
      (.emailQueue, "7", 1) =
    some ⟨some "email.send", none, .retrying, 5, some 8, some 3, some "UNKNOWN",
      some "stalled", none⟩ := by decide +kernel

end Worker
end ERP
