import ERP.Lib.OrderedMap
import ERP.Lib.Text

/-!
# The history of the executions of jobs

`JobExecutionHistoryService` listens to the events of the queues and keeps one row for
each attempt of a job.  Which attempt an event belongs to is known in memory alone: a
number and a snapshot for each job, lost when the worker restarts.

The handlers of the events of a job run one after the other, and those of other jobs
run in between wherever a handler waits.  So a step of the service is the arrival of an
event, a part of a handler up to where it waits for a write, or a restart.
-/

namespace ERP
namespace Worker

open Lib

inductive QueueName where
  | orderQueue | inventoryQueue | analyticsQueue | notificationQueue | emailQueue | pdfQueue
  deriving DecidableEq, Repr

def QueueName.text : QueueName → String
  | .orderQueue => "ORDER_QUEUE"
  | .inventoryQueue => "INVENTORY_QUEUE"
  | .analyticsQueue => "ANALYTICS_QUEUE"
  | .notificationQueue => "NOTIFICATION_QUEUE"
  | .emailQueue => "EMAIL_QUEUE"
  | .pdfQueue => "PDF_QUEUE"

inductive JobExecutionStatus where
  | active | retrying | completed | failed
  deriving DecidableEq, Repr

/-- What the queue has of a job when it is looked up.  Of the data of the job only the
correlation id is read, which counts when it is a string. -/
structure Job where
  name : String
  processedOn : Option Int
  timestamp : Option Int
  attempts : Option Nat
  failedReason : Option String
  correlationId : Option String
  deriving DecidableEq, Repr

structure JobKey where
  queueName : QueueName
  jobId : String
  deriving DecidableEq, Repr

structure Snapshot where
  jobName : Option String
  attemptNumber : Nat
  maxAttempts : Nat
  startedAt : Int
  correlationId : Option String
  deriving DecidableEq, Repr

/-- A row of the history, beside its unique columns queue, job and attempt number. -/
structure JobExecution where
  jobName : Option String
  workerId : Option String
  status : JobExecutionStatus
  startedAt : Int
  finishedAt : Option Int
  durationMs : Option Int
  errorCategory : Option String
  errorMessage : Option String
  correlationId : Option String
  deriving DecidableEq, Repr

/-! ## The text of a failure -/

/-- A word at the beginning of a text, in whichever case: as it stands there, and what
follows it. -/
def matchWord : List Char → List Char → Option (List Char × List Char)
  | [], text => some ([], text)
  | _ :: _, [] => none
  | w :: word, c :: text =>
      if c.toLower = w then (matchWord word text).map fun found => (c :: found.1, found.2)
      else none

/-- Replace what is found at a position, and go on behind it. -/
def replaceAll (find : List Char → Option (List Char × List Char)) : Nat → List Char → List Char
  | 0, text => text
  | _ + 1, [] => []
  | fuel + 1, c :: text =>
      match find (c :: text) with
      | some (new, rest) => new ++ replaceAll find fuel rest
      | none => c :: replaceAll find fuel text

/-- `(password|secret|token|api[_-]?key|authorization)=([^\s]+)`. -/
def findSecret (text : List Char) : Option (List Char × List Char) :=
  ["password", "secret", "token", "apikey", "api_key", "api-key", "authorization"].findSome?
    fun word => (matchWord (word ++ "=").toList text).bind fun found =>
      if (found.2.takeWhile fun c => !isSpace c) = [] then none
      else some (found.1 ++ "[REDACTED]".toList, found.2.dropWhile fun c => !isSpace c)

/-- `Bearer\s+[A-Za-z0-9._-]+`. -/
def findBearer (text : List Char) : Option (List Char × List Char) :=
  let isTokenChar (c : Char) : Bool :=
    ('A' ≤ c ∧ c ≤ 'Z') ∨ ('a' ≤ c ∧ c ≤ 'z') ∨ ('0' ≤ c ∧ c ≤ '9') ∨ c ∈ ['.', '_', '-']
  (matchWord "bearer".toList text).bind fun found =>
    let behind := found.2.dropWhile isSpace
    if found.2.takeWhile isSpace = [] ∨ behind.takeWhile isTokenChar = [] then none
    else some ("Bearer [REDACTED]".toList, behind.dropWhile isTokenChar)

/-- `\s+`. -/
def findSpaces (text : List Char) : Option (List Char × List Char) :=
  if text.takeWhile isSpace = [] then none else some ([' '], text.dropWhile isSpace)

/-- The first so many code units.  Half a pair at the end is not text: it is written as
the replacement character. -/
def sliceUnits : Nat → List Char → List Char
  | _, [] => []
  | 0, _ :: _ => []
  | units + 1, c :: text =>
      if c.toNat < 0x10000 then c :: sliceUnits units text
      else
        match units with
        | 0 => [Char.ofNat 0xFFFD]
        | units + 1 => c :: sliceUnits units text

/-- Whether one of the words occurs, in whichever case. -/
def mentions (words : List String) (text : List Char) : Bool :=
  words.any fun word => text.tails.any fun rest => (matchWord word.toList rest).isSome

structure Failure where
  category : String
  message : String
  deriving DecidableEq, Repr

def sanitizeFailure (failedReason : String) : Failure :=
  let replaced (find : List Char → Option (List Char × List Char)) (text : List Char) :=
    replaceAll find text.length text
  let redacted :=
    replaced findSpaces (replaced findBearer (replaced findSecret failedReason.toList))
  let message := sliceUnits 500 (trim (String.ofList redacted)).toList
  let category :=
    if mentions ["database", "prisma", "postgres", "sql", "duplicate key", "connection reset"]
        message then "DATABASE_ERROR"
    else if mentions ["validation", "zod", "required", "missing", "invalid", "bad request"]
        message then "VALIDATION_ERROR"
    else if mentions ["xendit", "stripe", "sendgrid", "external", "fetch failed", "provider",
        "http status"] message then "EXTERNAL_PROVIDER_ERROR"
    else if mentions ["timeout", "timed out", "abort", "etimedout", "econnreset"] message then
      "TIMEOUT"
    else if mentions ["error", "exception", "throw"] message then "APPLICATION_ERROR"
    else "UNKNOWN"
  ⟨category, String.ofList message⟩

/-! ## The service -/

/-- An event of a queue, with what its handler is going to find: the job, unless the
queue has dropped it by then, and the time. -/
inductive JobEvent where
  | active (found : Option Job) (now : Int)
  | completed (now : Int)
  | failed (failedReason : String) (now : Int)
  deriving DecidableEq, Repr

/-- What is left of a handler: all of it, the start of an attempt after the row of the
one before was written, or the end of the job after its last row was written. -/
inductive HandlerPart where
  | handle (event : JobEvent)
  | startAttempt (found : Job) (attemptNumber : Nat) (startedAt : Int)
  | forget
  deriving DecidableEq, Repr

/-- The maps of the service, the table, and the id under which the worker is registered.
`eventTasks` holds what is still to run of the handlers of a job. -/
structure JobExecutionHistory where
  jobSnapshots : OrderedMap String Snapshot
  attemptNumbers : OrderedMap String Nat
  eventTasks : OrderedMap String (List HandlerPart)
  jobExecutions : OrderedMap (QueueName × String × Nat) JobExecution
  workerId : Option String

def toSnapshotKey (job : JobKey) : String := job.queueName.text ++ ":" ++ job.jobId

def resolveStartedAt (job : Job) (now : Int) : Int :=
  (job.processedOn.or job.timestamp).getD now

/-- The arguments of `persistExecution` beside queue and job.  Every caller gives
`startedAt`. -/
structure ExecutionArgs where
  jobName : Option String
  attemptNumber : Nat
  status : JobExecutionStatus
  workerId : Option String
  startedAt : Int
  finishedAt : Option Int
  durationMs : Option Int
  errorCategory : Option String
  errorMessage : Option String
  correlationId : Option String

namespace ExecutionArgs

/-- The row after the upsert: what is not given stays as it was. -/
def upserted (args : ExecutionArgs) : Option JobExecution → JobExecution
  | none =>
      { jobName := args.jobName, workerId := args.workerId, status := args.status
        startedAt := args.startedAt, finishedAt := args.finishedAt
        durationMs := args.durationMs, errorCategory := args.errorCategory
        errorMessage := args.errorMessage, correlationId := args.correlationId }
  | some row =>
      { jobName := args.jobName.or row.jobName, workerId := args.workerId.or row.workerId
        status := args.status, startedAt := args.startedAt
        finishedAt := args.finishedAt.or row.finishedAt
        durationMs := args.durationMs.or row.durationMs
        errorCategory := args.errorCategory.or row.errorCategory
        errorMessage := args.errorMessage.or row.errorMessage
        correlationId := args.correlationId.or row.correlationId }

/-- A new attempt. -/
def started (workerId : Option String) (found : Job) (attemptNumber : Nat) (startedAt : Int) :
    ExecutionArgs :=
  { jobName := some found.name, attemptNumber, status := .active, workerId, startedAt
    finishedAt := none, durationMs := none, errorCategory := none, errorMessage := none
    correlationId := found.correlationId }

/-- The end of the attempt of a snapshot. -/
def ended (workerId : Option String) (snapshot : Snapshot) (status : JobExecutionStatus)
    (finishedAt : Int) (failure : Option Failure) : ExecutionArgs :=
  { jobName := snapshot.jobName, attemptNumber := snapshot.attemptNumber, status, workerId
    startedAt := snapshot.startedAt, finishedAt := some finishedAt
    durationMs := some (max 0 (finishedAt - snapshot.startedAt))
    errorCategory := failure.map Failure.category, errorMessage := failure.map Failure.message
    correlationId := snapshot.correlationId }

end ExecutionArgs

/-- `snapshot.attemptNumber < snapshot.maxAttempts ? 'RETRYING' : 'FAILED'`. -/
def Snapshot.failedStatus (snapshot : Snapshot) : JobExecutionStatus :=
  if snapshot.attemptNumber < snapshot.maxAttempts then .retrying else .failed

namespace JobExecutionHistory

/-- The service just started, on an empty table. -/
def start (workerId : Option String) : JobExecutionHistory :=
  ⟨.empty, .empty, .empty, .empty, workerId⟩

def persistExecution (s : JobExecutionHistory) (job : JobKey) (args : ExecutionArgs) :
    JobExecutionHistory :=
  let key := (job.queueName, job.jobId, args.attemptNumber)
  { s with jobExecutions := s.jobExecutions.set key (args.upserted (s.jobExecutions.get key)) }

/-- `handleActive` from where the snapshot of the new attempt is set. -/
def startAttempt (s : JobExecutionHistory) (job : JobKey) (found : Job) (attemptNumber : Nat)
    (startedAt : Int) : JobExecutionHistory :=
  let snapshot : Snapshot :=
    { jobName := some found.name, attemptNumber, maxAttempts := found.attempts.getD 1, startedAt
      correlationId := found.correlationId }
  { s with jobSnapshots := s.jobSnapshots.set (toSnapshotKey job) snapshot }.persistExecution job
    (.started s.workerId found attemptNumber startedAt)

def handleActive (s : JobExecutionHistory) (job : JobKey) (found : Option Job) (now : Int) :
    JobExecutionHistory × Option HandlerPart :=
  match found with
  | none => (s, none)
  | some found =>
      let key := toSnapshotKey job
      let attemptNumber := (s.attemptNumbers.get key).getD 0 + 1
      let startedAt := resolveStartedAt found now
      let counted := { s with attemptNumbers := s.attemptNumbers.set key attemptNumber }
      match (s.jobSnapshots.get key).filter fun previous =>
          previous.attemptNumber < attemptNumber with
      | none => (counted.startAttempt job found attemptNumber startedAt, none)
      | some previous =>
          let failure := sanitizeFailure (found.failedReason.getD "Unknown retryable failure")
          (counted.persistExecution job
              (.ended s.workerId previous .retrying startedAt (some failure)),
            some (.startAttempt found attemptNumber startedAt))

def handleCompleted (s : JobExecutionHistory) (job : JobKey) (now : Int) :
    JobExecutionHistory × Option HandlerPart :=
  match s.jobSnapshots.get (toSnapshotKey job) with
  | none => (s, none)
  | some snapshot =>
      (s.persistExecution job (.ended s.workerId snapshot .completed now none), some .forget)

def handleFailed (s : JobExecutionHistory) (job : JobKey) (failedReason : String) (now : Int) :
    JobExecutionHistory × Option HandlerPart :=
  match s.jobSnapshots.get (toSnapshotKey job) with
  | none => (s, none)
  | some snapshot =>
      let status := snapshot.failedStatus
      (s.persistExecution job
          (.ended s.workerId snapshot status now (some (sanitizeFailure failedReason))),
        if status = .failed then some .forget else none)

/-- `handleCompleted` and `handleFailed` after the last row of the job was written. -/
def forget (s : JobExecutionHistory) (job : JobKey) : JobExecutionHistory :=
  { s with
    jobSnapshots := s.jobSnapshots.delete (toSnapshotKey job)
    attemptNumbers := s.attemptNumbers.delete (toSnapshotKey job) }

/-- A part of a handler, and what it leaves to do. -/
def runPart (s : JobExecutionHistory) (job : JobKey) :
    HandlerPart → JobExecutionHistory × Option HandlerPart
  | .handle (.active found now) => s.handleActive job found now
  | .handle (.completed now) => s.handleCompleted job now
  | .handle (.failed failedReason now) => s.handleFailed job failedReason now
  | .startAttempt found attemptNumber startedAt =>
      (s.startAttempt job found attemptNumber startedAt, none)
  | .forget => (s.forget job, none)

def tasks (s : JobExecutionHistory) (job : JobKey) : List HandlerPart :=
  (s.eventTasks.get (toSnapshotKey job)).getD []

/-- The handler waits for the earlier ones of the same job. -/
def dispatchEvent (s : JobExecutionHistory) (job : JobKey) (event : JobEvent) :
    JobExecutionHistory :=
  { s with eventTasks := s.eventTasks.set (toSnapshotKey job) (s.tasks job ++ [.handle event]) }

/-- The next part of the handlers of a job.  The entry of the job goes with the last. -/
def advance (s : JobExecutionHistory) (job : JobKey) : JobExecutionHistory :=
  match s.tasks job with
  | [] => s
  | part :: waiting =>
      let done := s.runPart job part
      match done.2.toList ++ waiting with
      | [] => { done.1 with eventTasks := done.1.eventTasks.delete (toSnapshotKey job) }
      | left => { done.1 with eventTasks := done.1.eventTasks.set (toSnapshotKey job) left }

/-- Another process takes over, with empty maps. -/
def restart (s : JobExecutionHistory) (workerId : Option String) : JobExecutionHistory :=
  ⟨.empty, .empty, .empty, s.jobExecutions, workerId⟩

end JobExecutionHistory

inductive HistoryStep where
  | deliver (job : JobKey) (event : JobEvent)
  | advance (job : JobKey)
  | restart (workerId : Option String)
  deriving DecidableEq, Repr

namespace JobExecutionHistory

def step (s : JobExecutionHistory) : HistoryStep → JobExecutionHistory
  | .deliver job event => s.dispatchEvent job event
  | .advance job => s.advance job
  | .restart workerId => s.restart workerId

def run (s : JobExecutionHistory) (steps : List HistoryStep) : JobExecutionHistory :=
  steps.foldl step s

end JobExecutionHistory

end Worker
end ERP
