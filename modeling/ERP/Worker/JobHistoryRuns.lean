import ERP.Worker.JobHistory
import Mathlib.Data.List.Induction
import Mathlib.Logic.Function.Basic

/-!
# What the history says of the attempts of a job

What the service knows of a job changes with the events of that job and with restarts
alone, whatever runs in between; so it is the result of handling those events one by
one.  From there: every attempt has its row exactly when the number in memory lasts from
the first attempt to the last.
-/

namespace ERP
namespace Worker

open Lib OrderedMap

/-! ## One job -/

/-- What the service knows of one job. -/
structure JobView where
  snapshot : Option Snapshot
  attemptNumber : Option Nat
  row : Nat → Option JobExecution
  workerId : Option String

namespace JobView

def start (workerId : Option String) : JobView := ⟨none, none, fun _ => none, workerId⟩

def persist (v : JobView) (args : ExecutionArgs) : JobView :=
  { v with
    row := Function.update v.row args.attemptNumber
      (some (args.upserted (v.row args.attemptNumber))) }

def startAttempt (v : JobView) (found : Job) (attemptNumber : Nat) (startedAt : Int) : JobView :=
  let snapshot : Snapshot :=
    { jobName := some found.name, attemptNumber, maxAttempts := found.attempts.getD 1, startedAt
      correlationId := found.correlationId }
  { v with snapshot := some snapshot }.persist (.started v.workerId found attemptNumber startedAt)

def handleActive (v : JobView) (found : Option Job) (now : Int) : JobView × Option HandlerPart :=
  match found with
  | none => (v, none)
  | some found =>
      let attemptNumber := v.attemptNumber.getD 0 + 1
      let startedAt := resolveStartedAt found now
      let counted := { v with attemptNumber := some attemptNumber }
      match v.snapshot.filter fun previous => previous.attemptNumber < attemptNumber with
      | none => (counted.startAttempt found attemptNumber startedAt, none)
      | some previous =>
          let failure := sanitizeFailure (found.failedReason.getD "Unknown retryable failure")
          (counted.persist (.ended v.workerId previous .retrying startedAt (some failure)),
            some (.startAttempt found attemptNumber startedAt))

def handleCompleted (v : JobView) (now : Int) : JobView × Option HandlerPart :=
  match v.snapshot with
  | none => (v, none)
  | some snapshot => (v.persist (.ended v.workerId snapshot .completed now none), some .forget)

def handleFailed (v : JobView) (failedReason : String) (now : Int) :
    JobView × Option HandlerPart :=
  match v.snapshot with
  | none => (v, none)
  | some snapshot =>
      (v.persist (.ended v.workerId snapshot snapshot.failedStatus now
          (some (sanitizeFailure failedReason))),
        if snapshot.failedStatus = .failed then some .forget else none)

def forget (v : JobView) : JobView := { v with snapshot := none, attemptNumber := none }

def runPart (v : JobView) : HandlerPart → JobView × Option HandlerPart
  | .handle (.active found now) => v.handleActive found now
  | .handle (.completed now) => v.handleCompleted now
  | .handle (.failed failedReason now) => v.handleFailed failedReason now
  | .startAttempt found attemptNumber startedAt =>
      (v.startAttempt found attemptNumber startedAt, none)
  | .forget => (v.forget, none)

/-- A part and what it leaves to do; after that, nothing is left. -/
def complete (v : JobView) (part : HandlerPart) : JobView :=
  match (v.runPart part).2 with
  | none => (v.runPart part).1
  | some next => ((v.runPart part).1.runPart next).1

def restart (v : JobView) (workerId : Option String) : JobView :=
  { v with snapshot := none, attemptNumber := none, workerId }

theorem runPart_next (v v' : JobView) {part next : HandlerPart}
    (h : (v.runPart part).2 = some next) : (v'.runPart next).2 = none := by
  cases part with
  | handle event =>
      cases event with
      | active found now =>
          cases found with
          | none => cases h
          | some found =>
              unfold runPart handleActive at h
              dsimp only at h
              split at h
              · cases h
              · cases h
                rfl
      | completed now =>
          unfold runPart handleCompleted at h
          dsimp only at h
          split at h
          · cases h
          · cases h
            rfl
      | failed failedReason now =>
          unfold runPart handleFailed at h
          dsimp only at h
          split at h
          · cases h
          · dsimp only at h
            split at h
            · cases h
              rfl
            · cases h
  | startAttempt found attemptNumber startedAt => cases h
  | forget => cases h

/-- To run a part is to have that much less to complete. -/
theorem complete_runPart (v : JobView) (part : HandlerPart) :
    (v.runPart part).2.toList.foldl complete (v.runPart part).1 = v.complete part := by
  unfold complete
  cases h : (v.runPart part).2 with
  | none => rfl
  | some next =>
      show complete (v.runPart part).1 next = _
      unfold complete
      rw [v.runPart_next _ h]

end JobView

/-! ## The service, one job at a time -/

theorem QueueName.text_injective : Function.Injective QueueName.text := by
  intro q q' h
  cases q <;> cases q' <;> first | rfl | exact absurd h (by decide)

theorem toSnapshotKey_injective : Function.Injective toSnapshotKey := by
  rintro ⟨q, i⟩ ⟨q', i'⟩ h
  have hchars := congrArg String.toList h
  simp only [toSnapshotKey, String.toList_append] at hchars
  have hcolon (q : QueueName) : ':' ∉ q.text.toList := by cases q <;> decide
  have hsplit (q : QueueName) (rest : List Char) :
      (q.text.toList ++ ":".toList ++ rest).takeWhile (· ≠ ':') = q.text.toList := by
    have hinside : ∀ c ∈ q.text.toList, decide (c ≠ ':') = true := fun c hc =>
      decide_eq_true fun heq => hcolon q (by rw [← heq]; exact hc)
    rw [List.append_assoc, List.takeWhile_append_of_pos hinside]
    show q.text.toList ++ [] = _
    exact List.append_nil _
  have hname : q.text.toList = q'.text.toList := by
    rw [← hsplit q i.toList, hchars, hsplit]
  obtain rfl : q = q' := QueueName.text_injective (String.toList_injective hname)
  have hid : i.toList = i'.toList := List.append_cancel_left hchars
  rw [String.toList_injective hid]

namespace JobExecutionHistory

variable {s : JobExecutionHistory} {job other : JobKey}

def view (s : JobExecutionHistory) (job : JobKey) : JobView where
  snapshot := s.jobSnapshots.get (toSnapshotKey job)
  attemptNumber := s.attemptNumbers.get (toSnapshotKey job)
  row attemptNumber := s.jobExecutions.get (job.queueName, job.jobId, attemptNumber)
  workerId := s.workerId

theorem view_persistExecution (s : JobExecutionHistory) (job : JobKey) (args : ExecutionArgs) :
    (s.persistExecution job args).view job = (s.view job).persist args := by
  unfold view JobView.persist persistExecution
  congr 1
  funext n
  dsimp only
  rw [get_set]
  by_cases hn : n = args.attemptNumber
  · subst hn
    rw [if_pos rfl, Function.update_self]
  · rw [Function.update_of_ne hn, if_neg fun h => hn (Prod.ext_iff.mp (Prod.ext_iff.mp h).2).2]

theorem view_persistExecution_other (h : other ≠ job) (s : JobExecutionHistory)
    (args : ExecutionArgs) : (s.persistExecution job args).view other = s.view other := by
  unfold view persistExecution
  congr 1
  funext n
  dsimp only
  rw [get_set, if_neg]
  intro heq
  obtain ⟨hqueue, hrest⟩ := Prod.ext_iff.mp heq
  refine h ?_
  cases other
  cases job
  obtain rfl : _ = _ := hqueue
  obtain rfl : _ = _ := (Prod.ext_iff.mp hrest).1
  rfl

theorem view_startAttempt (s : JobExecutionHistory) (job : JobKey) (found : Job)
    (attemptNumber : Nat) (startedAt : Int) :
    (s.startAttempt job found attemptNumber startedAt).view job =
      (s.view job).startAttempt found attemptNumber startedAt := by
  unfold startAttempt JobView.startAttempt
  rw [view_persistExecution]
  unfold view
  dsimp only
  rw [get_set, if_pos rfl]

theorem view_startAttempt_other (h : other ≠ job) (s : JobExecutionHistory) (found : Job)
    (attemptNumber : Nat) (startedAt : Int) :
    (s.startAttempt job found attemptNumber startedAt).view other = s.view other := by
  unfold startAttempt
  rw [view_persistExecution_other h]
  unfold view
  dsimp only
  rw [get_set, if_neg (toSnapshotKey_injective.ne h)]

/-- A part of a handler does to its own job what it says. -/
theorem view_runPart (s : JobExecutionHistory) (job : JobKey) (part : HandlerPart) :
    (s.runPart job part).1.view job = ((s.view job).runPart part).1 ∧
      (s.runPart job part).2 = ((s.view job).runPart part).2 := by
  have hcounted (n : Nat) : ({ s with
      attemptNumbers := s.attemptNumbers.set (toSnapshotKey job) n } : JobExecutionHistory).view
        job = { s.view job with attemptNumber := some n } := by
    unfold view
    dsimp only
    rw [get_set, if_pos rfl]
  cases part with
  | handle event =>
      cases event with
      | active found now =>
          cases found with
          | none => exact ⟨rfl, rfl⟩
          | some found =>
              unfold runPart JobView.runPart handleActive JobView.handleActive
              dsimp only
              have hsnapshot : (s.view job).snapshot = s.jobSnapshots.get (toSnapshotKey job) := rfl
              have hnumber : (s.view job).attemptNumber =
                s.attemptNumbers.get (toSnapshotKey job) := rfl
              rw [hsnapshot, hnumber]
              generalize (s.jobSnapshots.get (toSnapshotKey job)).filter _ = previous
              cases previous with
              | none =>
                  refine ⟨?_, rfl⟩
                  dsimp only
                  rw [view_startAttempt, hcounted]
                  rfl
              | some previous =>
                  refine ⟨?_, rfl⟩
                  dsimp only
                  rw [view_persistExecution, hcounted]
                  rfl
      | completed now =>
          unfold runPart JobView.runPart handleCompleted JobView.handleCompleted
          dsimp only
          have hsnapshot : (s.view job).snapshot = s.jobSnapshots.get (toSnapshotKey job) := rfl
          rw [hsnapshot]
          cases s.jobSnapshots.get (toSnapshotKey job) with
          | none => exact ⟨rfl, rfl⟩
          | some snapshot => exact ⟨view_persistExecution _ _ _, rfl⟩
      | failed failedReason now =>
          unfold runPart JobView.runPart handleFailed JobView.handleFailed
          dsimp only
          have hsnapshot : (s.view job).snapshot = s.jobSnapshots.get (toSnapshotKey job) := rfl
          rw [hsnapshot]
          cases s.jobSnapshots.get (toSnapshotKey job) with
          | none => exact ⟨rfl, rfl⟩
          | some snapshot => exact ⟨view_persistExecution _ _ _, rfl⟩
  | startAttempt found attemptNumber startedAt => exact ⟨view_startAttempt _ _ _ _ _, rfl⟩
  | forget =>
      refine ⟨?_, rfl⟩
      show (s.forget job).view job = (s.view job).forget
      unfold forget JobView.forget view
      dsimp only
      rw [get_delete, get_delete, if_pos rfl, if_pos rfl]

/-- It leaves every other job alone, and what is to run. -/
theorem runPart_frame (s : JobExecutionHistory) (job : JobKey) (part : HandlerPart) :
    (∀ other, other ≠ job → (s.runPart job part).1.view other = s.view other) ∧
      (s.runPart job part).1.eventTasks = s.eventTasks := by
  have hcounted (n : Nat) (other : JobKey) (h : other ≠ job) : ({ s with
      attemptNumbers := s.attemptNumbers.set (toSnapshotKey job) n } : JobExecutionHistory).view
        other = s.view other := by
    unfold view
    dsimp only
    rw [get_set, if_neg (toSnapshotKey_injective.ne h)]
  cases part with
  | handle event =>
      cases event with
      | active found now =>
          cases found with
          | none => exact ⟨fun other _ => rfl, rfl⟩
          | some found =>
              unfold runPart handleActive
              dsimp only
              split
              · refine ⟨fun other h => ?_, rfl⟩
                rw [view_startAttempt_other h, hcounted _ other h]
              · refine ⟨fun other h => ?_, rfl⟩
                rw [view_persistExecution_other h, hcounted _ other h]
      | completed now =>
          unfold runPart handleCompleted
          dsimp only
          split
          · exact ⟨fun other _ => rfl, rfl⟩
          · exact ⟨fun other h => view_persistExecution_other h _ _, rfl⟩
      | failed failedReason now =>
          unfold runPart handleFailed
          dsimp only
          split
          · exact ⟨fun other _ => rfl, rfl⟩
          · exact ⟨fun other h => view_persistExecution_other h _ _, rfl⟩
  | startAttempt found attemptNumber startedAt =>
      exact ⟨fun other h => view_startAttempt_other h _ _ _ _, rfl⟩
  | forget =>
      refine ⟨fun other h => ?_, rfl⟩
      show (s.forget job).view other = s.view other
      unfold forget view
      dsimp only
      rw [get_delete, get_delete, if_neg (toSnapshotKey_injective.ne h),
        if_neg (toSnapshotKey_injective.ne h)]

/-! ## What is left to run -/

/-- What is known of the job once everything that waits has run. -/
def settled (s : JobExecutionHistory) (job : JobKey) : JobView :=
  (s.tasks job).foldl JobView.complete (s.view job)

theorem settled_deliver (s : JobExecutionHistory) (job other : JobKey) (event : JobEvent) :
    (s.dispatchEvent job event).settled other =
      if other = job then (s.settled other).complete (.handle event) else s.settled other := by
  have htasks : (s.dispatchEvent job event).tasks other =
      if other = job then s.tasks job ++ [.handle event] else s.tasks other := by
    unfold dispatchEvent tasks
    dsimp only
    rw [get_set]
    by_cases h : other = job
    · rw [h, if_pos rfl, if_pos rfl]
      rfl
    · rw [if_neg (toSnapshotKey_injective.ne h), if_neg h]
  unfold settled
  rw [htasks]
  by_cases h : other = job
  · rw [h, if_pos rfl, if_pos rfl, List.foldl_append]
    rfl
  · rw [if_neg h, if_neg h]
    rfl

/-- The next part of a handler: what is left is as much as before, less that part. -/
theorem advance_eq (s : JobExecutionHistory) (job : JobKey) {part : HandlerPart}
    {waiting : List HandlerPart} (h : s.tasks job = part :: waiting) :
    (s.advance job).tasks job = (s.runPart job part).2.toList ++ waiting ∧
      (∀ other, other ≠ job → (s.advance job).tasks other = s.tasks other) ∧
      ∀ other, (s.advance job).view other = (s.runPart job part).1.view other := by
  unfold advance
  rw [h]
  dsimp only
  have hframe := (s.runPart_frame job part).2
  cases hleft : (s.runPart job part).2.toList ++ waiting with
  | nil =>
      refine ⟨?_, fun other hne => ?_, fun other => rfl⟩
      · show ((OrderedMap.delete _ _).get (toSnapshotKey job)).getD [] = []
        rw [get_delete, if_pos rfl]
        rfl
      · show ((OrderedMap.delete _ _).get (toSnapshotKey other)).getD [] = _
        rw [get_delete, if_neg (toSnapshotKey_injective.ne hne), hframe]
        rfl
  | cons next rest =>
      refine ⟨?_, fun other hne => ?_, fun other => rfl⟩
      · show ((OrderedMap.set _ _ _).get (toSnapshotKey job)).getD [] = _
        rw [get_set, if_pos rfl]
        rfl
      · show ((OrderedMap.set _ _ _).get (toSnapshotKey other)).getD [] = _
        rw [get_set, if_neg (toSnapshotKey_injective.ne hne), hframe]
        rfl

theorem settled_advance (s : JobExecutionHistory) (job other : JobKey) :
    (s.advance job).settled other = s.settled other := by
  cases htasks : s.tasks job with
  | nil =>
      unfold advance
      rw [htasks]
  | cons part waiting =>
      obtain ⟨hown, hothers, hview⟩ := s.advance_eq job htasks
      unfold settled
      rw [hview]
      by_cases h : other = job
      · subst h
        rw [hown, htasks, (s.view_runPart other part).1, (s.view_runPart other part).2,
          List.foldl_append, JobView.complete_runPart]
        rfl
      · rw [hothers other h, (s.runPart_frame job part).1 other h]

theorem settled_restart (s : JobExecutionHistory) {job : JobKey} (h : s.tasks job = [])
    (workerId : Option String) :
    (s.restart workerId).settled job = (s.settled job).restart workerId := by
  unfold settled
  rw [h]
  rfl

end JobExecutionHistory

/-! ## The events of one job -/

/-- An event of a job, or a restart of the worker. -/
inductive JobTrace where
  | event (event : JobEvent)
  | restart (workerId : Option String)
  deriving DecidableEq, Repr

def JobView.apply (v : JobView) : JobTrace → JobView
  | .event event => v.complete (.handle event)
  | .restart workerId => v.restart workerId

/-- What a step means to the job. -/
def HistoryStep.concerning (job : JobKey) : HistoryStep → Option JobTrace
  | .deliver other event => if other = job then some (.event event) else none
  | .advance _ => none
  | .restart workerId => some (.restart workerId)

/-- What concerns the job, in the order of arrival. -/
def trace (job : JobKey) (steps : List HistoryStep) : List JobTrace :=
  steps.filterMap (HistoryStep.concerning job)

theorem settled_step (s : JobExecutionHistory) (job : JobKey) (step : HistoryStep)
    (hquiet : ∀ workerId, step = .restart workerId → s.tasks job = []) :
    (s.step step).settled job =
      (step.concerning job).toList.foldl JobView.apply (s.settled job) := by
  cases step with
  | deliver other event =>
      have hstep := s.settled_deliver other job event
      show (s.dispatchEvent other event).settled job =
        (if other = job then some (JobTrace.event event) else none).toList.foldl _ _
      by_cases h : other = job
      · rw [hstep, if_pos h, if_pos h.symm]
        rfl
      · rw [hstep, if_neg h, if_neg (Ne.symm h)]
        rfl
  | advance other => exact s.settled_advance other job
  | restart workerId => exact s.settled_restart (hquiet workerId rfl) workerId

/-- Whatever runs in between, what is known of the job is what its events make of it, as
long as none of them waits when the worker restarts. -/
theorem settled_run (job : JobKey) (steps : List HistoryStep) (s : JobExecutionHistory)
    (hquiet : ∀ prior workerId rest, steps = prior ++ .restart workerId :: rest →
      (s.run prior).tasks job = []) :
    (s.run steps).settled job = (trace job steps).foldl JobView.apply (s.settled job) := by
  induction steps generalizing s with
  | nil => rfl
  | cons step rest ih =>
      have hrest := ih (s.step step) fun prior workerId rest' heq =>
        hquiet (step :: prior) workerId rest' (by rw [heq, List.cons_append])
      have htrace : trace job (step :: rest) = (step.concerning job).toList ++ trace job rest := by
        unfold trace
        rw [List.filterMap_cons]
        cases step.concerning job <;> rfl
      show ((s.step step).run rest).settled job = _
      rw [hrest, htrace, List.foldl_append, settled_step]
      intro workerId heq
      exact hquiet [] workerId rest (by rw [heq]; rfl)

end Worker
end ERP
