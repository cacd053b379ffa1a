import TakBench.Config
import TakBench.Scenario.World

/-!
# Abort thresholds

A snapshot of the metrics takes the percentiles under the locks of the histograms and then loads
the counters one after the other, while the participants go on counting. `evaluate` compares a
snapshot with the limits of the configuration.

## Main definitions

* `MetricsSnapshot`, `Loading`: a snapshot, and one that is being taken
* `ThresholdViolation`, `evaluate`

## Main results

* `exceeds_of_evaluate`: a violation exceeds a limit that is set
-/

namespace TakBench

/-- What the monitor takes from outside: the value at a quantile of the microseconds recorded in
a histogram, `none` if it is empty, and the debug format of an `f64`. -/
structure Telemetry where
  valueAtQuantile : List ℕ → ℚ → Option ℕ
  debugF64 : F64 → String

/-! ## Snapshots -/

structure MetricsSnapshot where
  counters : Counter → ℕ
  deliveryP95Ms : Option F64
  deliveryP99Ms : Option F64

/-- A snapshot that is being taken, with the counters that are still to be loaded. -/
structure Loading where
  snapshot : MetricsSnapshot
  rest : List Counter

/-- The microseconds given to a histogram. -/
def World.micros (w : World) (histogram : Histogram) : List ℕ :=
  (w.recorded.filter (·.1 = histogram)).map fun record => max (min (record.2 / 1000) (2 ^ 64 - 1)) 1

/-- The delivery latency at a quantile in milliseconds. -/
def Telemetry.percentile (T : Telemetry) (w : World) (q : ℚ) : Option F64 :=
  (T.valueAtQuantile (w.micros .delivery) q).map fun micros =>
    .finite ((min micros (2 ^ 32 - 1) : ℕ) / 1000)

namespace Loading

/-- The locks of the histograms are taken. -/
def start (T : Telemetry) (w : World) : Loading where
  snapshot :=
    { counters := fun _ => 0
      deliveryP95Ms := T.percentile w (95 / 100)
      deliveryP99Ms := T.percentile w (99 / 100) }
  rest := [.connectionAttempts, .connectionSuccesses, .connectionFailures, .tlsFailures,
    .sentMessages, .receivedMessages, .duplicateMessages, .droppedMessages, .messageTimeouts,
    .reconnects, .reconnectFailures, .localDroppedMessages, .activeConnections]

/-- The next counter is loaded. -/
def load (w : World) (loading : Loading) : Option Loading :=
  match loading.rest with
  | [] => none
  | counter :: rest =>
    some
      { snapshot :=
          { loading.snapshot with
            counters := Function.update loading.snapshot.counters counter (w.counters counter) }
        rest }

/-- The snapshot, once all counters are loaded. -/
def finish? (loading : Loading) : Option MetricsSnapshot :=
  if loading.rest.isEmpty then some loading.snapshot else none

end Loading

/-! ## Thresholds -/

inductive ThresholdViolation where
  | connectionErrorRate (rate : F64)
  | messageErrorRate (rate : F64)
  | p95Latency (millis : F64)
  | p99Latency (millis : F64)
  | droppedMessages (n : ℕ)
  deriving DecidableEq

/-- The debug format of a violation. -/
def ThresholdViolation.debug (T : Telemetry) : ThresholdViolation → String
  | .connectionErrorRate rate => "ConnectionErrorRate(" ++ T.debugF64 rate ++ ")"
  | .messageErrorRate rate => "MessageErrorRate(" ++ T.debugF64 rate ++ ")"
  | .p95Latency millis => "P95Latency(" ++ T.debugF64 millis ++ ")"
  | .p99Latency millis => "P99Latency(" ++ T.debugF64 millis ++ ")"
  | .droppedMessages n => "DroppedMessages(" ++ toString n ++ ")"

/-- `ratio`. -/
def ratio (numerator denominator : ℕ) : F64 :=
  if denominator = 0 then .finite 0
  else .quotient (min numerator (2 ^ 32 - 1)) (min denominator (2 ^ 32 - 1))

/-- Is a rate over a limit that is set? -/
def rateExceeds (limit : Option F64) (rate : F64) : Bool := limit.any fun limit => limit.lt rate

/-- Is a latency over a limit that is set? -/
def latencyExceeds (limit : Option Duration) (millis : Option F64) : Bool :=
  limit.any fun limit => millis.any (F64.lt (.finite (limit.asSecsF64 * 1000)))

namespace MetricsSnapshot

variable (s : MetricsSnapshot)

def samples : ℕ := max (s.counters .connectionAttempts) (s.counters .sentMessages)

def connectionErrorRate : F64 :=
  ratio (s.counters .connectionFailures) (s.counters .connectionAttempts)

def messageErrorRate : F64 :=
  ratio (min (s.counters .messageTimeouts + s.counters .droppedMessages) (2 ^ 64 - 1))
    (s.counters .sentMessages)

end MetricsSnapshot

/-- `thresholds::evaluate`. -/
def evaluate (config : AbortConfig) (s : MetricsSnapshot) : Option ThresholdViolation :=
  if s.samples < config.minSamples.getD 1 then none
  else if rateExceeds config.connectionErrorRate s.connectionErrorRate then
    some (.connectionErrorRate s.connectionErrorRate)
  else if rateExceeds config.messageErrorRate s.messageErrorRate then
    some (.messageErrorRate s.messageErrorRate)
  else if latencyExceeds config.p95Latency s.deliveryP95Ms then
    some (.p95Latency (s.deliveryP95Ms.getD (.finite 0)))
  else if latencyExceeds config.p99Latency s.deliveryP99Ms then
    some (.p99Latency (s.deliveryP99Ms.getD (.finite 0)))
  else if config.maxDroppedMessages.any (· < s.counters .droppedMessages) then
    some (.droppedMessages (s.counters .droppedMessages))
  else none

/-- The limit of a violation is set, and exceeded by a snapshot with enough samples. -/
def ThresholdViolation.Exceeds (config : AbortConfig) (s : MetricsSnapshot)
    (violation : ThresholdViolation) : Prop :=
  config.minSamples.getD 1 ≤ s.samples ∧
    match violation with
    | .connectionErrorRate rate =>
      rate = s.connectionErrorRate ∧ ∃ limit, config.connectionErrorRate = some limit ∧
        limit.lt rate = true
    | .messageErrorRate rate =>
      rate = s.messageErrorRate ∧ ∃ limit, config.messageErrorRate = some limit ∧
        limit.lt rate = true
    | .p95Latency millis =>
      s.deliveryP95Ms = some millis ∧ ∃ limit, config.p95Latency = some limit ∧
        F64.lt (.finite (limit.asSecsF64 * 1000)) millis = true
    | .p99Latency millis =>
      s.deliveryP99Ms = some millis ∧ ∃ limit, config.p99Latency = some limit ∧
        F64.lt (.finite (limit.asSecsF64 * 1000)) millis = true
    | .droppedMessages n =>
      n = s.counters .droppedMessages ∧ ∃ limit, config.maxDroppedMessages = some limit ∧
        limit < n

theorem exists_of_latencyExceeds {limit : Option Duration} {millis : Option F64}
    (h : latencyExceeds limit millis = true) :
    millis = some (millis.getD (.finite 0)) ∧ ∃ l, limit = some l ∧
      F64.lt (.finite (l.asSecsF64 * 1000)) (millis.getD (.finite 0)) = true := by
  obtain ⟨l, hlimit, hmillis⟩ := (Option.any_eq_true _ _).mp h
  obtain ⟨m, rfl, hlt⟩ := (Option.any_eq_true _ _).mp hmillis
  exact ⟨rfl, l, hlimit, hlt⟩

/-- **A violation exceeds a limit that is set.** -/
theorem exceeds_of_evaluate {config : AbortConfig} {s : MetricsSnapshot}
    {violation : ThresholdViolation} (h : evaluate config s = some violation) :
    violation.Exceeds config s := by
  rw [evaluate] at h
  split at h
  · cases h
  next hsamples =>
  refine ⟨Nat.le_of_not_lt hsamples, ?_⟩
  -- the limits are looked at in turn: two rates, two latencies, the dropped messages
  split at h
  · next hrate =>
    obtain rfl := Option.some.inj h
    exact ⟨rfl, (Option.any_eq_true _ _).mp hrate⟩
  split at h
  · next hrate =>
    obtain rfl := Option.some.inj h
    exact ⟨rfl, (Option.any_eq_true _ _).mp hrate⟩
  split at h
  · next hlatency =>
    obtain rfl := Option.some.inj h
    exact exists_of_latencyExceeds hlatency
  split at h
  · next hlatency =>
    obtain rfl := Option.some.inj h
    exact exists_of_latencyExceeds hlatency
  split at h
  · next hdropped =>
    obtain rfl := Option.some.inj h
    obtain ⟨limit, hlimit, hlt⟩ := (Option.any_eq_true _ _).mp hdropped
    exact ⟨rfl, limit, hlimit, of_decide_eq_true hlt⟩
  · cases h

end TakBench
