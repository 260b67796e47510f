import ERP.Lib.OrderedMap
import Mathlib.Data.List.Infix
import Mathlib.Data.Rat.Floor

/-!
# The telemetry of HTTP requests

`OperationalTelemetryService`: every request is added to a metric of its minute, method,
route and status class, and a failed or slow one is logged as well.  Both are kept in
bounded buffers, from which `flush` takes a batch at a time and writes it to the
database.  A batch that could not be written goes back to its buffer, which may have
grown since.

A flush waits for the database twice, and requests are recorded while it waits; so the
steps of the service are the recording of a request and the parts of a flush between
two waits.
-/

namespace ERP
namespace Observability

open Lib

def maxBufferedLogs : Nat := 5000
def maxBufferedMetricKeys : Nat := 2000
def maxFlushBatch : Nat := 500

/-- The four texts of which the key of a metric is the JSON array, and by which the table
of the metrics is unique.  `bucketStart` is in milliseconds. -/
structure MetricKey where
  bucketStart : Int
  method : String
  route : String
  statusClass : String
  deriving DecidableEq, Repr

structure MetricAggregate extends MetricKey where
  requestCount : Nat
  errorCount : Nat
  durationTotalMs : Nat
  deriving DecidableEq, Repr

structure EventRecord where
  level : String
  eventType : String
  method : String
  route : String
  statusCode : Int
  durationMs : Nat
  deriving DecidableEq, Repr

/-- The arguments of `recordHttpRequest` and the time of the clock, in milliseconds. -/
structure HttpRequest where
  methodValue : String
  routeValue : String
  statusCode : Int
  durationMs : ℚ
  now : Int
  deriving DecidableEq, Repr

/-! ## What is recorded of a request -/

/-- `toUpperCase`, where the capital is written in ASCII.  No other character has one, and
it is left as it is: the result is only compared with ASCII texts. -/
def toUpperCase (text : String) : String :=
  String.ofList (text.toList.flatMap fun c =>
    if c.toNat = 0x131 then ['I']
    else if c.toNat = 0x17F then ['S']
    else if c.toNat = 0xDF then ['S', 'S']
    else if c.toNat = 0xFB00 then ['F', 'F']
    else if c.toNat = 0xFB01 then ['F', 'I']
    else if c.toNat = 0xFB02 then ['F', 'L']
    else if c.toNat = 0xFB03 then ['F', 'F', 'I']
    else if c.toNat = 0xFB04 then ['F', 'F', 'L']
    else if c.toNat = 0xFB05 ∨ c.toNat = 0xFB06 then ['S', 'T']
    else [c.toUpper])

def normalizeMethod (method : String) : String :=
  let upper := toUpperCase method
  if upper ∈ ["GET", "POST", "PUT", "PATCH", "DELETE", "HEAD", "OPTIONS"] then upper else "OTHER"

/-- `[A-Za-z0-9_./:-]`. -/
def isRouteChar (c : Char) : Bool :=
  ('A' ≤ c ∧ c ≤ 'Z') ∨ ('a' ≤ c ∧ c ≤ 'z') ∨ ('0' ≤ c ∧ c ≤ '9') ∨
    c ∈ ['_', '.', '/', ':', '-']

def normalizeRoute (route : String) : String :=
  if route.length > 200 ∨ ¬ (route.toList.head? = some '/' ∧ route.toList.all isRouteChar) ∨
      ['.', '.'] <:+: route.toList then
    "unmatched"
  else route

namespace HttpRequest

/-- `Math.max(0, Math.round(durationMs))`. -/
def roundedMs (request : HttpRequest) : Nat := ⌊request.durationMs + 1 / 2⌋.toNat

def key (request : HttpRequest) : MetricKey where
  bucketStart := request.now - request.now % 60000
  method := normalizeMethod request.methodValue
  route := normalizeRoute request.routeValue
  statusClass := toString (request.statusCode / 100) ++ "xx"

/-- The aggregate of this request alone. -/
def metric (request : HttpRequest) : MetricAggregate where
  toMetricKey := request.key
  requestCount := 1
  errorCount := if 500 ≤ request.statusCode then 1 else 0
  durationTotalMs := request.roundedMs

def event (request : HttpRequest) : Option EventRecord :=
  let record (level eventType : String) : EventRecord :=
    { level, eventType, method := normalizeMethod request.methodValue
      route := normalizeRoute request.routeValue, statusCode := request.statusCode
      durationMs := request.roundedMs }
  if 500 ≤ request.statusCode then some (record "ERROR" "HTTP_REQUEST_ERROR")
  else if 2000 ≤ request.durationMs then some (record "WARN" "HTTP_SLOW_RESPONSE")
  else none

end HttpRequest

/-- The counts of another aggregate of the same key are added. -/
def MetricAggregate.add (existing metric : MetricAggregate) : MetricAggregate :=
  { existing with
    requestCount := existing.requestCount + metric.requestCount
    errorCount := existing.errorCount + metric.errorCount
    durationTotalMs := existing.durationTotalMs + metric.durationTotalMs }

/-! ## The service -/

/-- A logged event with the number of the call that logged it, which tells equal events
apart. -/
abbrev LogEntry := Nat × EventRecord

abbrev MetricEntry := MetricKey × MetricAggregate

/-- Where a flush is: it waits for the metrics or the events to be written, or is about to
go on after that. -/
inductive FlushPoint where
  | metrics (batch : List MetricEntry)
  | metricsFlushed
  | logs (batch : List LogEntry)
  | logsFlushed
  deriving DecidableEq, Repr

/-- The fields of the service and its two tables.  `flushing` is `none` for `false`.
Beside them: how many requests were recorded, and what an overflow dropped. -/
structure Telemetry where
  metricsBuffer : OrderedMap MetricKey MetricAggregate
  logsBuffer : List LogEntry
  flushing : Option FlushPoint
  metricBuckets : OrderedMap MetricKey MetricAggregate
  eventLogs : List LogEntry
  recorded : Nat
  droppedMetrics : List MetricEntry
  droppedEvents : List LogEntry

namespace Telemetry

/-- The service just started, over what the tables hold already. -/
def start (metricBuckets : OrderedMap MetricKey MetricAggregate) (eventLogs : List LogEntry) :
    Telemetry :=
  ⟨.empty, [], none, metricBuckets, eventLogs, 0, [], []⟩

/-- An aggregate joins the one of its key, or is set if there is room.  The recording of a
request and the return of a batch do the same. -/
def bufferMetric (s : Telemetry) (entry : MetricEntry) : Telemetry :=
  match s.metricsBuffer.get entry.1 with
  | some existing =>
      { s with metricsBuffer := s.metricsBuffer.set entry.1 (existing.add entry.2) }
  | none =>
      if s.metricsBuffer.size < maxBufferedMetricKeys then
        { s with metricsBuffer := s.metricsBuffer.set entry.1 entry.2 }
      else { s with droppedMetrics := s.droppedMetrics ++ [entry] }

def enqueueLog (s : Telemetry) (event : LogEntry) : Telemetry :=
  if s.logsBuffer.length ≥ maxBufferedLogs then
    { s with droppedEvents := s.droppedEvents ++ [event] }
  else { s with logsBuffer := s.logsBuffer ++ [event] }

def recordHttpRequest (s : Telemetry) (request : HttpRequest) : Telemetry :=
  let counted := s.bufferMetric (request.key, request.metric)
  let logged :=
    match request.event with
    | some event => counted.enqueueLog (s.recorded, event)
    | none => counted
  { logged with recorded := s.recorded + 1 }

/-- `flushMetrics`, until the transaction is sent. -/
def flushMetrics (s : Telemetry) : Telemetry :=
  if s.metricsBuffer.size = 0 then { s with flushing := some .metricsFlushed }
  else
    let batch := s.metricsBuffer.entries.take maxFlushBatch
    { s with
      metricsBuffer := batch.foldl (fun m e => m.delete e.1) s.metricsBuffer
      flushing := some (.metrics batch) }

def flush (s : Telemetry) : Telemetry :=
  match s.flushing with
  | some _ => s
  | none => s.flushMetrics

/-- `upsert` of a row of the metrics. -/
def upsert (metricBuckets : OrderedMap MetricKey MetricAggregate) (metric : MetricAggregate) :
    OrderedMap MetricKey MetricAggregate :=
  match metricBuckets.get metric.toMetricKey with
  | some row => metricBuckets.set metric.toMetricKey (row.add metric)
  | none => metricBuckets.set metric.toMetricKey metric

/-- `flushMetrics`, once the transaction has committed or failed. -/
def metricsSettled (s : Telemetry) (committed : Bool) : Telemetry :=
  match s.flushing with
  | some (.metrics batch) =>
      if committed then
        { s with
          metricBuckets := (batch.map Prod.snd).foldl upsert s.metricBuckets
          flushing := some .metricsFlushed }
      else { batch.foldl bufferMetric s with flushing := some .metricsFlushed }
  | _ => s

/-- `flushLogs`, until `createMany` is sent. -/
def flushLogs (s : Telemetry) : Telemetry :=
  match s.flushing with
  | some .metricsFlushed =>
      if s.logsBuffer.length = 0 then { s with flushing := some .logsFlushed }
      else
        { s with
          logsBuffer := s.logsBuffer.drop maxFlushBatch
          flushing := some (.logs (s.logsBuffer.take maxFlushBatch)) }
  | _ => s

/-- `flushLogs`, once `createMany` has succeeded or failed. -/
def logsSettled (s : Telemetry) (created : Bool) : Telemetry :=
  match s.flushing with
  | some (.logs batch) =>
      if created then
        { s with eventLogs := s.eventLogs ++ batch, flushing := some .logsFlushed }
      else
        let overflow := s.logsBuffer.length + batch.length - maxBufferedLogs
        let kept := s.logsBuffer.length - overflow
        { s with
          logsBuffer := batch ++ s.logsBuffer.take kept
          droppedEvents := s.droppedEvents ++ s.logsBuffer.drop kept
          flushing := some .logsFlushed }
  | _ => s

/-- The `finally` of `flush`. -/
def flushed (s : Telemetry) : Telemetry :=
  match s.flushing with
  | some .logsFlushed => { s with flushing := none }
  | _ => s

end Telemetry

/-- A step of the service; one that does not apply changes nothing. -/
inductive TelemetryStep where
  | record (request : HttpRequest)
  | flush
  | metricsSettled (committed : Bool)
  | flushLogs
  | logsSettled (created : Bool)
  | flushed
  deriving DecidableEq, Repr

namespace Telemetry

def step (s : Telemetry) : TelemetryStep → Telemetry
  | .record request => s.recordHttpRequest request
  | .flush => s.flush
  | .metricsSettled committed => s.metricsSettled committed
  | .flushLogs => s.flushLogs
  | .logsSettled created => s.logsSettled created
  | .flushed => s.flushed

def run (s : Telemetry) (steps : List TelemetryStep) : Telemetry := steps.foldl step s

def metricsInFlight (s : Telemetry) : List MetricEntry :=
  match s.flushing with
  | some (.metrics batch) => batch
  | _ => []

def logsInFlight (s : Telemetry) : List LogEntry :=
  match s.flushing with
  | some (.logs batch) => batch
  | _ => []

end Telemetry

end Observability
end ERP
