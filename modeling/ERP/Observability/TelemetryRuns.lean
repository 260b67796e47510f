import ERP.Observability.Telemetry
import Mathlib.Algebra.Group.Prod
import Mathlib.Data.List.Sort

/-!
# Nothing recorded is lost or counted twice

Over any order of recordings and parts of flushes, whichever writes succeed: what was
recorded for a key is what the table gained, what is buffered, what is in flight and
what an overflow dropped.  The same holds of the events one by one, and the buffers keep
their bounds and the order of the events.
-/

namespace ERP
namespace Observability

open Lib OrderedMap

/-! ## What was recorded -/

/-- The requests that were recorded for a key. -/
def recordedRequests (key : MetricKey) (steps : List TelemetryStep) : List HttpRequest :=
  steps.filterMap fun
    | .record request => if request.key = key then some request else none
    | _ => none

/-- How many they are, how many of them failed, and how long they took together. -/
def recordedTotals (key : MetricKey) (steps : List TelemetryStep) : ℕ × ℕ × ℕ :=
  ((recordedRequests key steps).length,
    (recordedRequests key steps).countP fun request => 500 ≤ request.statusCode,
    ((recordedRequests key steps).map HttpRequest.roundedMs).sum)

/-- The requests, the errors and the milliseconds of an aggregate. -/
def MetricAggregate.totals (metric : MetricAggregate) : ℕ × ℕ × ℕ :=
  (metric.requestCount, metric.errorCount, metric.durationTotalMs)

def TelemetryStep.metrics : TelemetryStep → List MetricEntry
  | .record request => [(request.key, request.metric)]
  | _ => []

/-- The events of a step that follows so many recordings. -/
def TelemetryStep.events (recorded : Nat) : TelemetryStep → List LogEntry
  | .record request => (request.event.map (recorded, ·)).toList
  | _ => []

def recordedMetrics (steps : List TelemetryStep) : List MetricEntry :=
  steps.flatMap TelemetryStep.metrics

def recordedEvents : Nat → List TelemetryStep → List LogEntry
  | _, [] => []
  | recorded, step :: rest =>
      step.events recorded ++ recordedEvents (recorded + step.metrics.length) rest

/-- The aggregates of the requests add up to what was recorded. -/
theorem amount_recordedMetrics (key : MetricKey) (steps : List TelemetryStep) :
    amount MetricAggregate.totals (recordedMetrics steps) key = recordedTotals key steps := by
  induction steps with
  | nil => rfl
  | cons step rest ih =>
      have hsplit : recordedMetrics (step :: rest) = step.metrics ++ recordedMetrics rest := rfl
      rw [hsplit, amount_append, ih]
      cases step with
      | record request =>
          have hone : (TelemetryStep.record request).metrics =
              [(request.key, request.metric)] := rfl
          rw [hone, amount_single]
          unfold recordedTotals recordedRequests
          rw [List.filterMap_cons]
          by_cases hkey : request.key = key
          · rw [if_pos hkey]
            simp only [hkey, if_true, List.length_cons, List.countP_cons, List.map_cons,
              List.sum_cons, decide_eq_true_eq]
            refine Prod.ext (Nat.add_comm 1 _) (Prod.ext (Nat.add_comm _ _) rfl)
          · rw [if_neg hkey, zero_add]
            simp only [hkey, if_false]
      | _ => exact zero_add _

/-! ## Metrics -/

namespace Telemetry

/-- What is known of a key, wherever it is. -/
def accounted (s : Telemetry) (key : MetricKey) : ℕ × ℕ × ℕ :=
  amount MetricAggregate.totals s.metricBuckets.entries key +
    amount MetricAggregate.totals s.metricsBuffer.entries key +
    amount MetricAggregate.totals s.metricsInFlight key +
    amount MetricAggregate.totals s.droppedMetrics key

/-- The buffer within its bound, and every aggregate under its own key. -/
structure MetricsKept (s : Telemetry) : Prop where
  size : s.metricsBuffer.size ≤ maxBufferedMetricKeys
  coherent : ∀ e ∈ s.metricsBuffer.entries ++ s.metricsInFlight, e.2.toMetricKey = e.1

/-- The other fields stay; what the entry holds is in the buffer or was dropped. -/
theorem bufferMetric_eq (s : Telemetry) (entry : MetricEntry) :
    ∃ buffer dropped, s.bufferMetric entry =
        { s with metricsBuffer := buffer, droppedMetrics := dropped } ∧
      (∀ key, amount MetricAggregate.totals buffer.entries key +
          amount MetricAggregate.totals dropped key =
        amount MetricAggregate.totals s.metricsBuffer.entries key +
          amount MetricAggregate.totals s.droppedMetrics key +
          amount MetricAggregate.totals [entry] key) ∧
      (s.metricsBuffer.size ≤ maxBufferedMetricKeys → buffer.size ≤ maxBufferedMetricKeys) ∧
      ((∀ e ∈ s.metricsBuffer.entries, e.2.toMetricKey = e.1) → entry.2.toMetricKey = entry.1 →
        ∀ e ∈ buffer.entries, e.2.toMetricKey = e.1) := by
  have hsetKept (v : MetricAggregate) (hv : entry.2.toMetricKey = entry.1 →
      (∀ e ∈ s.metricsBuffer.entries, e.2.toMetricKey = e.1) → v.toMetricKey = entry.1)
      (hkept : ∀ e ∈ s.metricsBuffer.entries, e.2.toMetricKey = e.1)
      (hentry : entry.2.toMetricKey = entry.1) :
      ∀ e ∈ (s.metricsBuffer.set entry.1 v).entries, e.2.toMetricKey = e.1 := by
    rintro ⟨k, a⟩ he
    have hget := get_eq_some_iff.mpr he
    rw [get_set] at hget
    by_cases hk : k = entry.1
    · rw [if_pos hk] at hget
      obtain rfl := Option.some.inj hget
      exact (hv hentry hkept).trans hk.symm
    · rw [if_neg hk] at hget
      exact hkept _ (get_eq_some_iff.mp hget)
  unfold bufferMetric
  cases hget : s.metricsBuffer.get entry.1 with
  | some existing =>
      refine ⟨_, s.droppedMetrics, rfl, fun key => ?_, fun hsize => ?_, ?_⟩
      · have hsum := amount_set MetricAggregate.totals s.metricsBuffer entry.1
          (existing.add entry.2) (x := entry.2.totals) (by rw [hget]; rfl) key
        rw [hsum, amount_single]
        abel
      · have hmem : entry.1 ∈ s.metricsBuffer.keys := by
          by_contra hnot
          rw [get_eq_none_iff.mpr hnot] at hget
          exact Option.some_ne_none _ hget.symm
        rw [size_set, if_pos hmem]
        exact hsize
      · exact fun hkept => hsetKept _
          (fun _ hkept => hkept (entry.1, existing) (get_eq_some_iff.mp hget)) hkept
  | none =>
      dsimp only
      by_cases hroom : s.metricsBuffer.size < maxBufferedMetricKeys
      · rw [if_pos hroom]
        refine ⟨_, s.droppedMetrics, rfl, fun key => ?_, fun _ => ?_, ?_⟩
        · have hsum := amount_set MetricAggregate.totals s.metricsBuffer entry.1 entry.2
            (x := entry.2.totals) (by rw [hget]; exact (zero_add _).symm) key
          rw [hsum, amount_single]
          abel
        · rw [size_set, if_neg (get_eq_none_iff.mp hget)]
          exact hroom
        · exact fun hkept => hsetKept _ (fun hentry _ => hentry) hkept
      · rw [if_neg hroom]
        refine ⟨s.metricsBuffer, _, rfl, fun key => ?_, id, fun hkept _ => hkept⟩
        rw [amount_append]
        abel

/-- A batch goes back entry by entry. -/
theorem foldl_bufferMetric (batch : List MetricEntry) (s : Telemetry) :
    ∃ buffer dropped, batch.foldl bufferMetric s =
        { s with metricsBuffer := buffer, droppedMetrics := dropped } ∧
      (∀ key, amount MetricAggregate.totals buffer.entries key +
          amount MetricAggregate.totals dropped key =
        amount MetricAggregate.totals s.metricsBuffer.entries key +
          amount MetricAggregate.totals s.droppedMetrics key +
          amount MetricAggregate.totals batch key) ∧
      (s.metricsBuffer.size ≤ maxBufferedMetricKeys → buffer.size ≤ maxBufferedMetricKeys) ∧
      ((∀ e ∈ s.metricsBuffer.entries, e.2.toMetricKey = e.1) →
        (∀ e ∈ batch, e.2.toMetricKey = e.1) → ∀ e ∈ buffer.entries, e.2.toMetricKey = e.1) := by
  induction batch generalizing s with
  | nil =>
      exact ⟨s.metricsBuffer, s.droppedMetrics, rfl, fun key => (add_zero _).symm, id,
        fun hkept _ => hkept⟩
  | cons entry batch ih =>
      obtain ⟨buffer₁, dropped₁, h₁, hsum₁, hsize₁, hkept₁⟩ := s.bufferMetric_eq entry
      obtain ⟨buffer, dropped, h, hsum, hsize, hkept⟩ := ih (s.bufferMetric entry)
      rw [h₁] at h hsum hsize hkept
      refine ⟨buffer, dropped, ?_, fun key => ?_, fun hs => hsize (hsize₁ hs), fun hs hbatch => ?_⟩
      · rw [List.foldl_cons, h₁, h]
      · rw [hsum key, hsum₁ key, amount_cons _ entry batch]
        abel
      · exact hkept (hkept₁ hs (hbatch entry List.mem_cons_self))
          fun e he => hbatch e (List.mem_cons_of_mem entry he)

/-- The rows of a batch are added to the rows of the table. -/
theorem amount_upsert (batch : List MetricEntry) (hbatch : ∀ e ∈ batch, e.2.toMetricKey = e.1)
    (buckets : OrderedMap MetricKey MetricAggregate) (key : MetricKey) :
    amount MetricAggregate.totals ((batch.map Prod.snd).foldl upsert buckets).entries key =
      amount MetricAggregate.totals buckets.entries key +
        amount MetricAggregate.totals batch key := by
  induction batch generalizing buckets with
  | nil => exact (add_zero _).symm
  | cons entry batch ih =>
      have hone : amount MetricAggregate.totals (upsert buckets entry.2).entries key =
          amount MetricAggregate.totals buckets.entries key +
            amount MetricAggregate.totals [entry] key := by
        rw [amount_single, ← hbatch entry List.mem_cons_self]
        unfold upsert
        cases hget : buckets.get entry.2.toMetricKey with
        | some row => exact amount_set _ _ _ _ (by rw [hget]; rfl) key
        | none => exact amount_set _ _ _ _ (by rw [hget]; exact (zero_add _).symm) key
      rw [List.map_cons, List.foldl_cons, ih fun e he => hbatch e (List.mem_cons_of_mem entry he),
        hone, amount_cons _ entry batch]
      abel

/-! ## Events -/

/-- Every event that was logged, wherever it is. -/
def places (s : Telemetry) : List LogEntry :=
  s.eventLogs ++ s.logsInFlight ++ s.logsBuffer ++ s.droppedEvents

/-- The buffer and the batch within their bounds.  What was written, after what the table
held before, then the batch, then the buffer: that is the order of recording. -/
structure LogsKept (before : List LogEntry) (s : Telemetry) : Prop where
  length : s.logsBuffer.length ≤ maxBufferedLogs
  batch : s.logsInFlight.length ≤ maxFlushBatch
  ordered : ∃ written, s.eventLogs = before ++ written ∧
    (written ++ s.logsInFlight ++ s.logsBuffer).Pairwise (fun a b => a.1 < b.1) ∧
    ∀ e ∈ written ++ s.logsInFlight ++ s.logsBuffer, e.1 < s.recorded

/-- The other fields stay; an event that finds no room is dropped. -/
theorem enqueueLog_eq (s : Telemetry) (event : LogEntry) :
    ∃ buffer dropped, s.enqueueLog event =
        { s with logsBuffer := buffer, droppedEvents := dropped } ∧
      (buffer ++ dropped).Perm (s.logsBuffer ++ s.droppedEvents ++ [event]) ∧
      (s.logsBuffer.length ≤ maxBufferedLogs → buffer.length ≤ maxBufferedLogs) ∧
      (buffer = s.logsBuffer ∨ buffer = s.logsBuffer ++ [event]) := by
  unfold enqueueLog
  by_cases hfull : s.logsBuffer.length ≥ maxBufferedLogs
  · rw [if_pos hfull]
    refine ⟨s.logsBuffer, s.droppedEvents ++ [event], rfl, ?_, id, .inl rfl⟩
    rw [List.append_assoc]
  · rw [if_neg hfull]
    refine ⟨s.logsBuffer ++ [event], s.droppedEvents, rfl, ?_, fun _ => ?_, .inr rfl⟩
    · rw [List.append_assoc, List.append_assoc]
      exact List.perm_append_comm.append_left s.logsBuffer
    · rw [List.length_append, List.length_singleton]
      omega

/-- A recording in full: its metric and its event, if it has one, are placed, and the
flush that may be running is left alone. -/
theorem recordHttpRequest_eq (s : Telemetry) (request : HttpRequest) :
    ∃ metrics droppedMetrics logs droppedEvents, s.recordHttpRequest request =
        { s with
          metricsBuffer := metrics, droppedMetrics := droppedMetrics, logsBuffer := logs
          droppedEvents := droppedEvents, recorded := s.recorded + 1 } ∧
      s.bufferMetric (request.key, request.metric) =
        { s with metricsBuffer := metrics, droppedMetrics := droppedMetrics } ∧
      (logs ++ droppedEvents).Perm (s.logsBuffer ++ s.droppedEvents ++
        (TelemetryStep.record request).events s.recorded) ∧
      (s.logsBuffer.length ≤ maxBufferedLogs → logs.length ≤ maxBufferedLogs) ∧
      (logs = s.logsBuffer ∨ ∃ event, logs = s.logsBuffer ++ [(s.recorded, event)]) := by
  obtain ⟨metrics, droppedMetrics, hmetric, -⟩ :=
    s.bufferMetric_eq (request.key, request.metric)
  have hevents : (TelemetryStep.record request).events s.recorded =
      (request.event.map (s.recorded, ·)).toList := rfl
  unfold recordHttpRequest
  rw [hevents, hmetric]
  cases request.event with
  | none =>
      refine ⟨metrics, droppedMetrics, s.logsBuffer, s.droppedEvents, rfl, rfl, ?_, id, .inl rfl⟩
      rw [Option.map_none, Option.toList_none, List.append_nil]
  | some event =>
      obtain ⟨logs, droppedEvents, hlog, hperm, hlength, hcases⟩ := enqueueLog_eq
        { s with metricsBuffer := metrics, droppedMetrics := droppedMetrics } (s.recorded, event)
      dsimp only
      rw [hlog]
      exact ⟨metrics, droppedMetrics, logs, droppedEvents, rfl, rfl, hperm, hlength,
        hcases.imp id fun h => ⟨event, h⟩⟩

/-! ## Parts of a flush that leave the metrics, or the events, alone -/

structure SameMetrics (s s' : Telemetry) : Prop where
  metricBuckets : s'.metricBuckets = s.metricBuckets
  metricsBuffer : s'.metricsBuffer = s.metricsBuffer
  inFlight : s'.metricsInFlight = s.metricsInFlight
  dropped : s'.droppedMetrics = s.droppedMetrics

structure SameLogs (s s' : Telemetry) : Prop where
  eventLogs : s'.eventLogs = s.eventLogs
  logsBuffer : s'.logsBuffer = s.logsBuffer
  inFlight : s'.logsInFlight = s.logsInFlight
  dropped : s'.droppedEvents = s.droppedEvents
  recorded : s'.recorded = s.recorded

variable {s s' : Telemetry} {before : List LogEntry}

theorem SameMetrics.accounted (h : SameMetrics s s') (key : MetricKey) :
    s'.accounted key = s.accounted key := by
  unfold Telemetry.accounted
  rw [h.metricBuckets, h.metricsBuffer, h.inFlight, h.dropped]

theorem SameMetrics.kept (h : SameMetrics s s') (hs : s.MetricsKept) : s'.MetricsKept where
  size := by
    rw [h.metricsBuffer]
    exact hs.size
  coherent := by
    rw [h.metricsBuffer, h.inFlight]
    exact hs.coherent

theorem SameLogs.places (h : SameLogs s s') : s'.places = s.places := by
  unfold Telemetry.places
  rw [h.eventLogs, h.inFlight, h.logsBuffer, h.dropped]

theorem SameLogs.kept (h : SameLogs s s') (hs : s.LogsKept before) : s'.LogsKept before where
  length := by
    rw [h.logsBuffer]
    exact hs.length
  batch := by
    rw [h.inFlight]
    exact hs.batch
  ordered := by
    rw [h.eventLogs, h.inFlight, h.logsBuffer, h.recorded]
    exact hs.ordered

theorem flush_logs (s : Telemetry) : SameLogs s s.flush := by
  unfold flush flushMetrics
  cases hf : s.flushing with
  | some point => exact ⟨rfl, rfl, rfl, rfl, rfl⟩
  | none =>
      have hnone : s.logsInFlight = [] := by unfold logsInFlight; rw [hf]
      dsimp only
      split <;> exact ⟨rfl, rfl, hnone.symm, rfl, rfl⟩

theorem metricsSettled_logs (s : Telemetry) (committed : Bool) :
    SameLogs s (s.metricsSettled committed) := by
  unfold metricsSettled
  split
  · rename_i batch hf
    have hnone : s.logsInFlight = [] := by unfold logsInFlight; rw [hf]
    cases committed with
    | true => exact ⟨rfl, rfl, hnone.symm, rfl, rfl⟩
    | false =>
        obtain ⟨buffer, dropped, hbatch, -⟩ := foldl_bufferMetric batch s
        rw [hbatch]
        exact ⟨rfl, rfl, hnone.symm, rfl, rfl⟩
  · exact ⟨rfl, rfl, rfl, rfl, rfl⟩

theorem flushLogs_metrics (s : Telemetry) : SameMetrics s s.flushLogs := by
  unfold flushLogs
  split
  · rename_i hf
    have hnone : s.metricsInFlight = [] := by unfold metricsInFlight; rw [hf]
    split <;> exact ⟨rfl, rfl, hnone.symm, rfl⟩
  · exact ⟨rfl, rfl, rfl, rfl⟩

theorem logsSettled_metrics (s : Telemetry) (created : Bool) :
    SameMetrics s (s.logsSettled created) := by
  unfold logsSettled
  split
  · rename_i batch hf
    have hnone : s.metricsInFlight = [] := by unfold metricsInFlight; rw [hf]
    cases created <;> exact ⟨rfl, rfl, hnone.symm, rfl⟩
  · exact ⟨rfl, rfl, rfl, rfl⟩

theorem flushed_same (s : Telemetry) : SameMetrics s s.flushed ∧ SameLogs s s.flushed := by
  unfold flushed
  split
  · rename_i hf
    have hmetrics : s.metricsInFlight = [] := by unfold metricsInFlight; rw [hf]
    have hlogs : s.logsInFlight = [] := by unfold logsInFlight; rw [hf]
    exact ⟨⟨rfl, rfl, hmetrics.symm, rfl⟩, ⟨rfl, rfl, hlogs.symm, rfl, rfl⟩⟩
  · exact ⟨⟨rfl, rfl, rfl, rfl⟩, ⟨rfl, rfl, rfl, rfl, rfl⟩⟩

/-! ## One step -/

theorem MetricsKept.step (h : s.MetricsKept) (e : TelemetryStep) : (s.step e).MetricsKept := by
  have hbuffer : ∀ e ∈ s.metricsBuffer.entries, e.2.toMetricKey = e.1 := fun e he =>
    h.coherent e (List.mem_append_left _ he)
  cases e with
  | record request =>
      obtain ⟨metrics, droppedMetrics, logs, droppedEvents, hstep, hmetric, -⟩ :=
        s.recordHttpRequest_eq request
      obtain ⟨buffer, dropped, hmetric', -, hsize, hkept⟩ :=
        s.bufferMetric_eq (request.key, request.metric)
      obtain rfl : metrics = buffer :=
        congrArg Telemetry.metricsBuffer (hmetric.symm.trans hmetric')
      show (s.recordHttpRequest request).MetricsKept
      rw [hstep]
      refine ⟨hsize h.size, fun e he => ?_⟩
      rcases List.mem_append.mp he with he | he
      · exact hkept hbuffer rfl e he
      · exact h.coherent e (List.mem_append_right _ he)
  | flush =>
      show s.flush.MetricsKept
      unfold flush flushMetrics
      cases hf : s.flushing with
      | some point => exact h
      | none =>
          dsimp only
          split
          · exact ⟨h.size, fun e he => hbuffer e ((List.mem_append.mp he).resolve_right
              List.not_mem_nil)⟩
          · have hrest := s.metricsBuffer.entries_delete_take maxFlushBatch
            refine ⟨?_, fun e he => ?_⟩
            · have hlength := congrArg List.length hrest
              rw [List.length_drop] at hlength
              exact hlength.le.trans ((Nat.sub_le _ _).trans h.size)
            · rcases List.mem_append.mp he with he | he
              · rw [hrest] at he
                exact hbuffer e (List.mem_of_mem_drop he)
              · exact hbuffer e (List.mem_of_mem_take he)
  | metricsSettled committed =>
      show (s.metricsSettled committed).MetricsKept
      unfold metricsSettled
      split
      · rename_i batch hf
        have hbatch : s.metricsInFlight = batch := by unfold metricsInFlight; rw [hf]
        have hcoherent : ∀ e ∈ batch, e.2.toMetricKey = e.1 := fun e he =>
          h.coherent e (List.mem_append_right _ (by rw [hbatch]; exact he))
        obtain ⟨buffer, dropped, hback, -, hsize, hkept⟩ := foldl_bufferMetric batch s
        cases committed with
        | true => exact ⟨h.size, fun e he => hbuffer e ((List.mem_append.mp he).resolve_right
            List.not_mem_nil)⟩
        | false =>
            rw [hback]
            exact ⟨hsize h.size, fun e he => hkept hbuffer hcoherent e
              ((List.mem_append.mp he).resolve_right List.not_mem_nil)⟩
      · exact h
  | flushLogs => exact s.flushLogs_metrics.kept h
  | logsSettled created => exact (s.logsSettled_metrics created).kept h
  | flushed => exact s.flushed_same.1.kept h

/-- A step adds to what is known of a key what it records for it. -/
theorem accounted_step (h : s.MetricsKept) (e : TelemetryStep) (key : MetricKey) :
    (s.step e).accounted key = s.accounted key + amount MetricAggregate.totals e.metrics key := by
  cases e with
  | record request =>
      obtain ⟨metrics, droppedMetrics, logs, droppedEvents, hstep, hmetric, -⟩ :=
        s.recordHttpRequest_eq request
      obtain ⟨buffer, dropped, hmetric', hsum, -⟩ :=
        s.bufferMetric_eq (request.key, request.metric)
      obtain rfl : metrics = buffer :=
        congrArg Telemetry.metricsBuffer (hmetric.symm.trans hmetric')
      obtain rfl : droppedMetrics = dropped :=
        congrArg Telemetry.droppedMetrics (hmetric.symm.trans hmetric')
      show (s.recordHttpRequest request).accounted key = _
      rw [hstep]
      unfold accounted
      have hrecorded := hsum key
      show _ + amount _ metrics.entries key + amount _ s.metricsInFlight key +
        amount _ droppedMetrics key = _ + amount _ [(request.key, request.metric)] key
      rw [add_right_comm, add_assoc (amount _ s.metricBuckets.entries key), hrecorded]
      abel
  | flush =>
      show s.flush.accounted key = _ + 0
      unfold flush flushMetrics
      cases hf : s.flushing with
      | some point => exact (add_zero _).symm
      | none =>
          have hnone : s.metricsInFlight = [] := by unfold metricsInFlight; rw [hf]
          unfold accounted
          rw [hnone, amount_nil]
          dsimp only
          split
          · rfl
          · have hrest := s.metricsBuffer.entries_delete_take maxFlushBatch
            have hsplit := amount_append MetricAggregate.totals
              (s.metricsBuffer.entries.take maxFlushBatch)
              (s.metricsBuffer.entries.drop maxFlushBatch) key
            rw [List.take_append_drop] at hsplit
            dsimp only [metricsInFlight]
            rw [hrest, hsplit]
            abel
  | metricsSettled committed =>
      show (s.metricsSettled committed).accounted key = _ + 0
      unfold metricsSettled
      split
      · rename_i batch hf
        have hbatch : s.metricsInFlight = batch := by unfold metricsInFlight; rw [hf]
        have hcoherent : ∀ e ∈ batch, e.2.toMetricKey = e.1 := fun e he =>
          h.coherent e (List.mem_append_right _ (by rw [hbatch]; exact he))
        unfold accounted
        rw [hbatch]
        cases committed with
        | true =>
            show amount _ ((batch.map Prod.snd).foldl upsert s.metricBuckets).entries key +
              amount _ s.metricsBuffer.entries key + 0 + amount _ s.droppedMetrics key = _
            rw [amount_upsert batch hcoherent]
            abel
        | false =>
            obtain ⟨buffer, dropped, hback, hsum, -⟩ := foldl_bufferMetric batch s
            have hreturned := hsum key
            rw [hback]
            show amount _ s.metricBuckets.entries key + amount _ buffer.entries key + 0 +
              amount _ dropped key = _
            rw [add_zero, add_assoc, hreturned]
            abel
      · exact (add_zero _).symm
  | flushLogs => exact (s.flushLogs_metrics.accounted key).trans (add_zero _).symm
  | logsSettled created =>
      exact ((s.logsSettled_metrics created).accounted key).trans (add_zero _).symm
  | flushed => exact (s.flushed_same.1.accounted key).trans (add_zero _).symm

/-- A batch of events that could not be written goes back in front; the newest make room. -/
theorem LogsKept.step (h : s.LogsKept before) (e : TelemetryStep) :
    (s.step e).LogsKept before := by
  obtain ⟨written, hwritten, hpairwise, hearlier⟩ := h.ordered
  cases e with
  | record request =>
      obtain ⟨metrics, droppedMetrics, logs, droppedEvents, hstep, -, -, hlength, hlogs⟩ :=
        s.recordHttpRequest_eq request
      show (s.recordHttpRequest request).LogsKept before
      rw [hstep]
      refine ⟨hlength h.length, h.batch, written, hwritten, ?_, ?_⟩
      · rcases hlogs with rfl | ⟨event, rfl⟩
        · exact hpairwise
        · show (written ++ s.logsInFlight ++ (s.logsBuffer ++ [(s.recorded, event)])).Pairwise _
          rw [← List.append_assoc]
          refine List.pairwise_append.mpr ⟨hpairwise, List.pairwise_singleton _ _,
            fun a ha b hb => ?_⟩
          rw [List.mem_singleton.mp hb]
          exact hearlier a ha
      · intro e he
        show e.1 < s.recorded + 1
        rcases hlogs with rfl | ⟨event, rfl⟩
        · exact Nat.lt_succ_of_lt (hearlier e he)
        · have he' : e ∈ written ++ s.logsInFlight ++ (s.logsBuffer ++ [(s.recorded, event)]) := he
          rw [← List.append_assoc] at he'
          rcases List.mem_append.mp he' with hold | hnew
          · exact Nat.lt_succ_of_lt (hearlier e hold)
          · rw [List.mem_singleton.mp hnew]
            exact Nat.lt_succ_self _
  | flush => exact s.flush_logs.kept h
  | metricsSettled committed => exact (s.metricsSettled_logs committed).kept h
  | flushLogs =>
      show s.flushLogs.LogsKept before
      unfold flushLogs
      split
      · rename_i hf
        have hnone : s.logsInFlight = [] := by unfold logsInFlight; rw [hf]
        rw [hnone, List.append_nil] at hpairwise hearlier
        split
        · refine ⟨h.length, Nat.zero_le _, written, hwritten, ?_, ?_⟩
          · show (written ++ [] ++ s.logsBuffer).Pairwise _
            rw [List.append_nil]
            exact hpairwise
          · show ∀ e ∈ written ++ [] ++ s.logsBuffer, e.1 < s.recorded
            rw [List.append_nil]
            exact hearlier
        · have hsame : written ++ s.logsBuffer.take maxFlushBatch ++
              s.logsBuffer.drop maxFlushBatch = written ++ s.logsBuffer := by
            rw [List.append_assoc, List.take_append_drop]
          refine ⟨?_, List.length_take_le _ _, written, hwritten, ?_, ?_⟩
          · show (s.logsBuffer.drop maxFlushBatch).length ≤ maxBufferedLogs
            rw [List.length_drop]
            exact (Nat.sub_le _ _).trans h.length
          · show (written ++ s.logsBuffer.take maxFlushBatch ++
              s.logsBuffer.drop maxFlushBatch).Pairwise _
            rw [hsame]
            exact hpairwise
          · show ∀ e ∈ written ++ s.logsBuffer.take maxFlushBatch ++
              s.logsBuffer.drop maxFlushBatch, e.1 < s.recorded
            rw [hsame]
            exact hearlier
      · exact h
  | logsSettled created =>
      show (s.logsSettled created).LogsKept before
      unfold logsSettled
      split
      · rename_i batch hf
        have hbatch : s.logsInFlight = batch := by unfold logsInFlight; rw [hf]
        have hsmall := h.batch
        rw [hbatch] at hpairwise hearlier hsmall
        cases created with
        | true =>
            refine ⟨h.length, Nat.zero_le _, written ++ batch, ?_, ?_, ?_⟩
            · show s.eventLogs ++ batch = _
              rw [hwritten, List.append_assoc]
            · show (written ++ batch ++ [] ++ s.logsBuffer).Pairwise _
              rw [List.append_nil]
              exact hpairwise
            · show ∀ e ∈ written ++ batch ++ [] ++ s.logsBuffer, e.1 < s.recorded
              rw [List.append_nil]
              exact hearlier
        | false =>
            have hsub : (written ++ [] ++ (batch ++ s.logsBuffer.take (s.logsBuffer.length -
                (s.logsBuffer.length + batch.length - maxBufferedLogs)))).Sublist
                  (written ++ batch ++ s.logsBuffer) := by
              rw [List.append_nil, ← List.append_assoc]
              exact (List.take_sublist _ _).append_left _
            refine ⟨?_, Nat.zero_le _, written, hwritten, hpairwise.sublist hsub,
              fun e he => hearlier e (hsub.subset he)⟩
            show (batch ++ s.logsBuffer.take _).length ≤ maxBufferedLogs
            rw [List.length_append, List.length_take]
            unfold maxFlushBatch at hsmall
            unfold maxBufferedLogs
            omega
      · exact h
  | flushed => exact s.flushed_same.2.kept h

/-- A step places what it logs and loses nothing that was placed. -/
theorem places_step (s : Telemetry) (e : TelemetryStep) :
    (s.step e).places.Perm (s.places ++ e.events s.recorded) := by
  cases e with
  | record request =>
      obtain ⟨metrics, droppedMetrics, logs, droppedEvents, hstep, -, hperm, -⟩ :=
        s.recordHttpRequest_eq request
      show (s.recordHttpRequest request).places.Perm _
      rw [hstep]
      unfold places
      have hboth := hperm.append_left (s.eventLogs ++ s.logsInFlight)
      simp only [← List.append_assoc] at hboth
      exact hboth
  | flush => exact (s.flush_logs.places ▸ List.append_nil _ ▸ .refl _)
  | metricsSettled committed =>
      exact (s.metricsSettled_logs committed).places ▸ List.append_nil _ ▸ .refl _
  | flushLogs =>
      show s.flushLogs.places.Perm (s.places ++ [])
      rw [List.append_nil]
      unfold flushLogs
      split
      · rename_i hf
        have hnone : s.logsInFlight = [] := by unfold logsInFlight; rw [hf]
        unfold places
        rw [hnone]
        split
        · exact .refl _
        · show (s.eventLogs ++ s.logsBuffer.take maxFlushBatch ++ s.logsBuffer.drop maxFlushBatch ++
            s.droppedEvents).Perm _
          rw [List.append_assoc s.eventLogs, List.take_append_drop, List.append_nil]
      · exact .refl _
  | logsSettled created =>
      show (s.logsSettled created).places.Perm (s.places ++ [])
      rw [List.append_nil]
      unfold logsSettled
      split
      · rename_i batch hf
        have hbatch : s.logsInFlight = batch := by unfold logsInFlight; rw [hf]
        unfold places
        rw [hbatch]
        cases created with
        | true =>
            show (s.eventLogs ++ batch ++ [] ++ s.logsBuffer ++ s.droppedEvents).Perm _
            rw [List.append_nil]
        | false =>
            have hreturned (kept : Nat) : (s.eventLogs ++ [] ++ (batch ++ s.logsBuffer.take kept) ++
                (s.droppedEvents ++ s.logsBuffer.drop kept)).Perm
                  (s.eventLogs ++ batch ++ s.logsBuffer ++ s.droppedEvents) := by
              have hsplit : s.logsBuffer.take kept ++ s.logsBuffer.drop kept = s.logsBuffer :=
                List.take_append_drop kept s.logsBuffer
              conv_rhs => rw [← hsplit]
              simp only [List.append_nil, List.append_assoc]
              refine .append_left _ (.append_left _ (.append_left _ ?_))
              exact List.perm_append_comm
            exact hreturned _
      · exact .refl _
  | flushed => exact s.flushed_same.2.places ▸ List.append_nil _ ▸ .refl _

/-! ## Drops -/

/-- An aggregate never makes the buffer smaller, and is dropped only where it is full. -/
theorem bufferMetric_full (s : Telemetry) (entry : MetricEntry) :
    s.metricsBuffer.size ≤ (s.bufferMetric entry).metricsBuffer.size ∧
      ((s.bufferMetric entry).droppedMetrics ≠ s.droppedMetrics →
        maxBufferedMetricKeys ≤ (s.bufferMetric entry).metricsBuffer.size) := by
  have hset (v : MetricAggregate) :
      s.metricsBuffer.size ≤ (s.metricsBuffer.set entry.1 v).size := by
    rw [size_set]
    split
    · exact le_refl _
    · exact Nat.le_succ _
  unfold bufferMetric
  split
  · exact ⟨hset _, fun hdrop => absurd rfl hdrop⟩
  · by_cases hroom : s.metricsBuffer.size < maxBufferedMetricKeys
    · rw [if_pos hroom]
      exact ⟨hset _, fun hdrop => absurd rfl hdrop⟩
    · rw [if_neg hroom]
      exact ⟨le_refl _, fun _ => not_lt.mp hroom⟩

theorem foldl_bufferMetric_full (batch : List MetricEntry) (s : Telemetry) :
    s.metricsBuffer.size ≤ (batch.foldl bufferMetric s).metricsBuffer.size ∧
      ((batch.foldl bufferMetric s).droppedMetrics ≠ s.droppedMetrics →
        maxBufferedMetricKeys ≤ (batch.foldl bufferMetric s).metricsBuffer.size) := by
  induction batch generalizing s with
  | nil => exact ⟨le_refl _, fun hdrop => absurd rfl hdrop⟩
  | cons entry batch ih =>
      obtain ⟨hgrows, hfull⟩ := s.bufferMetric_full entry
      obtain ⟨hgrows', hfull'⟩ := ih (s.bufferMetric entry)
      refine ⟨hgrows.trans hgrows', fun hdrop => ?_⟩
      by_cases hfirst : (s.bufferMetric entry).droppedMetrics = s.droppedMetrics
      · rw [← hfirst] at hdrop
        exact hfull' hdrop
      · exact (hfull hfirst).trans hgrows'

/-- Something is dropped only by a step that leaves its buffer full. -/
structure DropsWhenFull (s s' : Telemetry) : Prop where
  metrics : s'.droppedMetrics ≠ s.droppedMetrics → maxBufferedMetricKeys ≤ s'.metricsBuffer.size
  events : s'.droppedEvents ≠ s.droppedEvents → maxBufferedLogs ≤ s'.logsBuffer.length

theorem recordHttpRequest_full (s : Telemetry) (request : HttpRequest) :
    DropsWhenFull s (s.recordHttpRequest request) := by
  obtain ⟨metrics, droppedMetrics, hmetric, -⟩ := s.bufferMetric_eq (request.key, request.metric)
  have hfull := (s.bufferMetric_full (request.key, request.metric)).2
  unfold recordHttpRequest
  rw [hmetric] at hfull ⊢
  split
  · unfold enqueueLog
    dsimp only
    split
    · rename_i hlogs
      exact ⟨hfull, fun _ => hlogs⟩
    · exact ⟨hfull, fun hdrop => absurd rfl hdrop⟩
  · exact ⟨hfull, fun hdrop => absurd rfl hdrop⟩

theorem dropsWhenFull_step (h : s.LogsKept before) (e : TelemetryStep) :
    DropsWhenFull s (s.step e) := by
  cases e with
  | record request => exact s.recordHttpRequest_full request
  | flush =>
      refine ⟨fun hdrop => absurd ?_ hdrop, fun hdrop => absurd s.flush_logs.dropped hdrop⟩
      show s.flush.droppedMetrics = s.droppedMetrics
      unfold flush flushMetrics
      split
      · rfl
      · split <;> rfl
  | metricsSettled committed =>
      refine ⟨fun hdrop => ?_, fun hdrop =>
        absurd (s.metricsSettled_logs committed).dropped hdrop⟩
      revert hdrop
      show (s.metricsSettled committed).droppedMetrics ≠ _ →
        _ ≤ (s.metricsSettled committed).metricsBuffer.size
      unfold metricsSettled
      split
      · rename_i batch _
        cases committed with
        | true => exact fun hdrop => absurd rfl hdrop
        | false => exact (foldl_bufferMetric_full batch s).2
      · exact fun hdrop => absurd rfl hdrop
  | flushLogs =>
      refine ⟨fun hdrop => absurd s.flushLogs_metrics.dropped hdrop, fun hdrop => absurd ?_ hdrop⟩
      show s.flushLogs.droppedEvents = s.droppedEvents
      unfold flushLogs
      split
      · split <;> rfl
      · rfl
  | logsSettled created =>
      refine ⟨fun hdrop => absurd (s.logsSettled_metrics created).dropped hdrop, fun hdrop => ?_⟩
      revert hdrop
      show (s.logsSettled created).droppedEvents ≠ _ → _ ≤ (s.logsSettled created).logsBuffer.length
      unfold logsSettled
      split
      · rename_i batch hf
        have hbatch : s.logsInFlight = batch := by unfold logsInFlight; rw [hf]
        have hsmall := h.batch
        have hlength := h.length
        rw [hbatch] at hsmall
        cases created with
        | true => exact fun hdrop => absurd rfl hdrop
        | false =>
            intro hdrop
            -- what is dropped is what does not fit behind the batch
            have hover : s.logsBuffer.length <
                s.logsBuffer.length + batch.length - maxBufferedLogs + s.logsBuffer.length := by
              by_contra hfits
              refine hdrop ?_
              show s.droppedEvents ++ s.logsBuffer.drop _ = s.droppedEvents
              rw [List.drop_eq_nil_of_le (by omega), List.append_nil]
            show _ ≤ (batch ++ s.logsBuffer.take _).length
            rw [List.length_append, List.length_take]
            unfold maxFlushBatch at hsmall
            unfold maxBufferedLogs at hover ⊢
            omega
      · exact fun hdrop => absurd rfl hdrop
  | flushed =>
      exact ⟨fun hdrop => absurd s.flushed_same.1.dropped hdrop, fun hdrop =>
        absurd s.flushed_same.2.dropped hdrop⟩

/-! ## Runs -/

theorem recorded_step (s : Telemetry) (e : TelemetryStep) :
    (s.step e).recorded = s.recorded + e.metrics.length := by
  cases e with
  | record request =>
      obtain ⟨metrics, droppedMetrics, logs, droppedEvents, hstep, -⟩ :=
        s.recordHttpRequest_eq request
      show (s.recordHttpRequest request).recorded = _
      rw [hstep]
      rfl
  | flush => exact s.flush_logs.recorded
  | metricsSettled committed => exact (s.metricsSettled_logs committed).recorded
  | flushLogs =>
      show s.flushLogs.recorded = s.recorded
      unfold flushLogs
      split
      · split <;> rfl
      · rfl
  | logsSettled created =>
      show (s.logsSettled created).recorded = s.recorded
      unfold logsSettled
      split
      · cases created <;> rfl
      · rfl
  | flushed => exact s.flushed_same.2.recorded

theorem MetricsKept.run (h : s.MetricsKept) (steps : List TelemetryStep) :
    (s.run steps).MetricsKept ∧ ∀ key, (s.run steps).accounted key =
      s.accounted key + amount MetricAggregate.totals (recordedMetrics steps) key := by
  induction steps generalizing s with
  | nil => exact ⟨h, fun key => (add_zero _).symm⟩
  | cons e steps ih =>
      obtain ⟨hkept, hsum⟩ := ih (h.step e)
      refine ⟨hkept, fun key => ?_⟩
      show ((s.step e).run steps).accounted key = _
      rw [hsum key, accounted_step h e key, add_assoc, ← amount_append]
      rfl

theorem LogsKept.run (h : s.LogsKept before) (steps : List TelemetryStep) :
    (s.run steps).LogsKept before ∧
      (s.run steps).places.Perm (s.places ++ recordedEvents s.recorded steps) := by
  induction steps generalizing s with
  | nil =>
      refine ⟨h, ?_⟩
      rw [show recordedEvents s.recorded [] = [] from rfl, List.append_nil]
      rfl
  | cons e steps ih =>
      obtain ⟨hkept, hperm⟩ := ih (h.step e)
      refine ⟨hkept, hperm.trans ?_⟩
      have hall : recordedEvents s.recorded (e :: steps) =
          e.events s.recorded ++ recordedEvents (s.step e).recorded steps := by
        rw [recorded_step]
        rfl
      rw [hall, ← List.append_assoc]
      exact (places_step s e).append_right _

end Telemetry

/-- The events that are recorded carry distinct numbers. -/
theorem recordedEvents_nodup (recorded : Nat) (steps : List TelemetryStep) :
    ((recordedEvents recorded steps).map Prod.fst).Nodup ∧
      ∀ e ∈ recordedEvents recorded steps, recorded ≤ e.1 := by
  induction steps generalizing recorded with
  | nil => exact ⟨List.nodup_nil, fun e he => absurd he List.not_mem_nil⟩
  | cons step rest ih =>
      obtain ⟨hnodup, hlater⟩ := ih (recorded + step.metrics.length)
      unfold recordedEvents
      cases step with
      | record request =>
          have hevents : (TelemetryStep.record request).events recorded =
              (request.event.map (recorded, ·)).toList := rfl
          rw [hevents]
          cases request.event with
          | none => exact ⟨hnodup, fun e he => (Nat.le_succ _).trans (hlater e he)⟩
          | some event =>
              refine ⟨List.nodup_cons.mpr ⟨fun hmem => ?_, hnodup⟩, fun e he => ?_⟩
              · obtain ⟨e, he, hsame⟩ := List.mem_map.mp hmem
                have hafter : recorded + 1 ≤ e.1 := hlater e he
                have hsame' : e.1 = recorded := hsame
                omega
              · rcases List.mem_cons.mp he with rfl | he
                · exact le_refl _
                · exact (Nat.le_succ _).trans (hlater e he)
      | _ => exact ⟨hnodup, hlater⟩

/-- After any steps, over any rows that the tables held before: every key's requests,
errors and milliseconds are accounted for; every event is in exactly one place, and what
was written, what is in flight and what is buffered stand in the order of recording;
the buffers are within their bounds, and a step drops something only where one is full. -/
theorem telemetry_conserved (metricBuckets : OrderedMap MetricKey MetricAggregate)
    (eventLogs : List LogEntry) (steps : List TelemetryStep) :
    ∃ s, s = (Telemetry.start metricBuckets eventLogs).run steps ∧
      (∀ key, amount MetricAggregate.totals metricBuckets.entries key +
          recordedTotals key steps =
        amount MetricAggregate.totals s.metricBuckets.entries key +
          amount MetricAggregate.totals s.metricsBuffer.entries key +
          amount MetricAggregate.totals s.metricsInFlight key +
          amount MetricAggregate.totals s.droppedMetrics key) ∧
      (∃ written, s.eventLogs = eventLogs ++ written ∧
        (written ++ s.logsInFlight ++ s.logsBuffer ++ s.droppedEvents).Perm
          (recordedEvents 0 steps) ∧
        ((written ++ s.logsInFlight ++ s.logsBuffer ++ s.droppedEvents).map Prod.fst).Nodup ∧
        (written ++ s.logsInFlight ++ s.logsBuffer).Pairwise fun a b => a.1 < b.1) ∧
      s.metricsBuffer.size ≤ maxBufferedMetricKeys ∧ s.logsBuffer.length ≤ maxBufferedLogs ∧
      ∀ e, s.DropsWhenFull (s.step e) := by
  have hmetrics : (Telemetry.start metricBuckets eventLogs).MetricsKept :=
    ⟨Nat.zero_le _, fun e he => absurd he List.not_mem_nil⟩
  have hlogs : (Telemetry.start metricBuckets eventLogs).LogsKept eventLogs :=
    ⟨Nat.zero_le _, Nat.zero_le _, [], (List.append_nil _).symm, List.Pairwise.nil,
      fun e he => absurd he List.not_mem_nil⟩
  obtain ⟨hkept, hsum⟩ := hmetrics.run steps
  obtain ⟨hordered, hperm⟩ := hlogs.run steps
  obtain ⟨written, hwritten, hpairwise, -⟩ := hordered.ordered
  have hplaces : (written ++ ((Telemetry.start metricBuckets eventLogs).run steps).logsInFlight ++
      ((Telemetry.start metricBuckets eventLogs).run steps).logsBuffer ++
      ((Telemetry.start metricBuckets eventLogs).run steps).droppedEvents).Perm
        (recordedEvents 0 steps) := by
    unfold Telemetry.places at hperm
    rw [hwritten] at hperm
    simp only [Telemetry.start, Telemetry.logsInFlight, List.append_nil, List.append_assoc,
      List.perm_append_left_iff] at hperm
    simp only [List.append_assoc]
    exact hperm
  refine ⟨_, rfl, fun key => ?_, ⟨written, hwritten, hplaces, ?_, hpairwise⟩, hkept.size,
    hordered.length, fun e => Telemetry.dropsWhenFull_step hordered e⟩
  · have hkey := hsum key
    have hstart : (Telemetry.start metricBuckets eventLogs).accounted key =
        amount MetricAggregate.totals metricBuckets.entries key := by
      show amount MetricAggregate.totals metricBuckets.entries key + 0 + 0 + 0 = _
      rw [add_zero, add_zero, add_zero]
    rw [hstart, amount_recordedMetrics] at hkey
    exact hkey.symm
  · exact (hplaces.map Prod.fst).nodup_iff.mpr (recordedEvents_nodup 0 steps).1

end Observability
end ERP
