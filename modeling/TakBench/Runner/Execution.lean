import TakBench.Runner.Thresholds
import TakBench.Scenario.Run

/-!
# An execution

`execute_with_lifecycle` validates the configuration, starts a monitor of the thresholds and runs
the scenario. Once the scenario has an outcome it aborts the monitor, reads the reason that the
monitor may have recorded and writes the report. The monitor takes a snapshot of the metrics every
second; when a threshold is violated it records the reason and stops the scenario.

## Main definitions

* `RunReport`, `RunExecution`, `conclude`
* `Execution`, `Execution.start`, `Execution.step`

## Main results

* `Execution.scenario_cases`, `Execution.main_cases`: what a step does to the scenario, and to the
  main task
* `Execution.keeps_step`: an outcome stays, and only the monitor records a reason
* `Execution.isReason_of_exec`: a recorded reason names a limit that was exceeded
-/

namespace TakBench

variable (T : Telemetry) (P : Platform) (config : AppConfig)

/-! ## Reports -/

inductive RunStatus where
  | passed
  | failed
  | aborted
  deriving DecidableEq

structure SanitizedConfig where
  environment : Environment
  profile : Profile
  participants : List String
  tlsEnabled : Bool
  reconnectEnabled : Bool
  waitForReady : List String
  lifecycleJsonl : Bool

/-- The status that is announced. -/
def RunStatus.completion : RunStatus → CompletionStatus
  | .passed => .passed
  | .failed => .failed
  | .aborted => .aborted

/-- A report, without its times. -/
structure RunReport where
  environment : Environment
  target : String
  profile : Profile
  clients : UInt32
  metrics : MetricsSnapshot
  stopReason : String
  status : RunStatus
  abortReason : Option String
  assertions : List AssertionResult
  participantFailures : List ParticipantFailure
  sanitizedConfig : SanitizedConfig

/-- `RunReport::new`. -/
def RunReport.new (metrics : MetricsSnapshot) (stopReason : String) (status : RunStatus)
    (assertions : List AssertionResult) (participantFailures : List ParticipantFailure) :
    RunReport where
  environment := config.environment
  target := config.target.server
  profile := config.run.profile
  clients := config.run.clients
  metrics
  stopReason
  status
  abortReason := if status = .passed then none else some stopReason
  assertions
  participantFailures
  sanitizedConfig :=
    { environment := config.environment
      profile := config.run.profile
      participants := config.participants.map (·.id)
      tlsEnabled := config.tls.enabled
      reconnectEnabled := config.reconnect.enabled
      waitForReady := config.synchronization.waitForReady
      lifecycleJsonl := config.output.lifecycleJsonl }

inductive RunFailure where
  | scenario (error : StartError)
  | message (text : String)

structure RunExecution where
  report : RunReport
  failure : Option RunFailure

namespace RunExecution

/-- `RunExecution::passed`. -/
def passed (execution : RunExecution) : Bool :=
  execution.failure.isNone && execution.report.status = .passed

/-- `RunExecution::into_result`. -/
def intoResult (execution : RunExecution) : Except RunFailure RunReport :=
  match execution.failure with
  | none => .ok execution.report
  | some failure => .error failure

end RunExecution

/-- The outcome of `run_fixed_positions_with_lifecycle`. -/
abbrev Outcome := Except StartError ScenarioOutcome

namespace Outcome

def assertions : Outcome → List AssertionResult
  | .ok outcome => outcome.assertions
  | .error _ => []

def participantFailures : Outcome → List ParticipantFailure
  | .ok outcome => outcome.participantFailures
  | .error _ => []

/-- The scenario ended well, every assertion passed and no participant failed. -/
def isClean (outcome : Outcome) : Bool :=
  outcome.isOk && outcome.assertions.all (·.passed) && outcome.participantFailures.isEmpty

end Outcome

/-- The report and the failure, from the outcome of the scenario and the reason that was read. -/
def conclude (outcome : Outcome) (threshold : Option String) (metrics : MetricsSnapshot) :
    RunExecution :=
  let assertionsFailed := outcome.assertions.any fun assertion => !assertion.passed
  let participantsFailed := !outcome.participantFailures.isEmpty
  let completed := outcome.isOk && !assertionsFailed && !participantsFailed
  -- a recorded reason comes before the outcome of the scenario
  let stopReason :=
    match threshold with
    | some reason => reason
    | none =>
      if completed then "completed"
      else if assertionsFailed then "routing_assertion_failed"
      else "scenario_error"
  let status :=
    if threshold.isSome then .aborted else if completed then .passed else RunStatus.failed
  { report := RunReport.new config metrics stopReason status outcome.assertions
      outcome.participantFailures
    failure :=
      match outcome with
      | .error error => some (.scenario error)
      | .ok _ =>
        if assertionsFailed || participantsFailed then
          some (.message "run failed; see the sanitized JSON report")
        else none }

/-! ## The state of an execution -/

/-- The scenario of an execution. -/
inductive Scenario where
  | failed (error : StartError) (world : World)
  | running (run : Run)

namespace Scenario

/-- The metrics and the clock that the scenario shares with the monitor. -/
def world : Scenario → World
  | .failed _ world => world
  | .running run => run.world

/-- The outcome of the scenario, if it has one. -/
def outcome? : Scenario → Option Outcome
  | .failed error _ => some (.error error)
  | .running run =>
    match run.main with
    | .returned outcome => some (.ok outcome)
    | _ => none

/-- The stop signal is sent to the scenario. -/
def signal : Scenario → Scenario
  | .failed error world => .failed error world
  | .running run => .running { run with stop := true }

/-- Has the stop signal been sent, if anybody waits for it? -/
def isStopped : Scenario → Bool
  | .failed _ _ => true
  | .running run => run.stop

/-- An event is written to the stream that the scenario writes to. -/
def emit (event : LifecycleEvent) : Scenario → Scenario
  | .failed error world => .failed error (world.apply (.emit event))
  | .running run => .running { run with world := run.world.apply (.emit event) }

def elapse (d : Duration) : Scenario → Scenario
  | .failed error world => .failed error { world with now := world.now + d }
  | .running run => .running { run with world := { run.world with now := run.world.now + d } }

end Scenario

/-- Where the monitor stands. -/
inductive MonitorPhase where
  /-- a task that has not run yet -/
  | spawned
  /-- waiting for a tick of the interval -/
  | ticking (created : Instant) (fired : ℕ)
  | loading (created : Instant) (fired : ℕ) (loading : Loading)
  /-- waiting for the lock of the reason -/
  | recording (reason : String)
  /-- about to stop the scenario -/
  | signalling
  | done

/-- Where `execute_with_lifecycle` stands. -/
inductive ExecutionPhase where
  | running
  /-- the monitor is aborted; waiting for the lock of the reason -/
  | aborted (outcome : Outcome)
  /-- waiting for the locks of the histograms -/
  | counting (outcome : Outcome) (threshold : Option String)
  | loading (outcome : Outcome) (threshold : Option String) (loading : Loading)
  | returned (execution : RunExecution)

structure Execution where
  /-- the caller has signalled stop, or is gone -/
  stop : Bool
  scenario : Scenario
  monitor : MonitorPhase
  /-- the reason that the monitor has recorded -/
  reason : Option String
  main : ExecutionPhase

inductive MonitorAct where
  | start
  | tick
  | load
  | evaluate
  | recorded
  | signalled
  /-- the aborted monitor is dropped at a suspension point -/
  | dropped
  deriving DecidableEq

inductive ExecutionAct where
  | elapse (d : Duration)
  | stop
  /-- the stop signal of the caller is forwarded to the scenario -/
  | forward
  | scenario (act : RunAct)
  | monitor (act : MonitorAct)
  /-- the scenario is over: the monitor is aborted -/
  | abort
  | read
  | count
  | load
  | report

namespace Execution

/-- An execution whose monitor has not run yet. -/
def new (scenario : Scenario) (stop : Bool) : Execution where
  stop
  scenario
  monitor := .spawned
  reason := none
  main := .running

/-- `execute_with_lifecycle` up to its first suspension. It panics with the scenario. -/
def start (started : ℤ) (shuffle : ℕ → List Duration → List Duration) (options : SafetyOptions)
    (stop : Bool) : Except StartError Execution :=
  match validateWithOptions config options with
  | .error error => .error (.safety error)
  | .ok () =>
    match Run.start config started shuffle options stop with
    | .error .panicked => .error .panicked
    | .error error => .ok (new (.failed error (World.initial stop)) stop)
    | .ok run => .ok (new (.running run) stop)

/-- Is the monitor aborted? -/
def isAborted (e : Execution) : Bool :=
  match e.main with
  | .running => false
  | _ => true

/-- A step of the monitor. -/
def stepMonitor (e : Execution) : MonitorAct → Option Execution
  | .start =>
    match e.monitor with
    | .spawned => some { e with monitor := .ticking e.scenario.world.now 0 }
    | _ => none
  | .tick =>
    match e.monitor with
    | .ticking created fired =>
      -- the first tick is immediate
      if created + fired * Duration.fromSecs 1 ≤ e.scenario.world.now then
        some { e with monitor := .loading created (fired + 1) (Loading.start T e.scenario.world) }
      else none
    | _ => none
  | .load =>
    match e.monitor with
    | .loading created fired loading =>
      (loading.load e.scenario.world).map fun loading =>
        { e with monitor := .loading created fired loading }
    | _ => none
  | .evaluate =>
    match e.monitor with
    | .loading created fired loading =>
      loading.finish?.map fun snapshot =>
        match evaluate config.abort snapshot with
        | none => { e with monitor := .ticking created fired }
        | some violation => { e with monitor := .recording ("threshold:" ++ violation.debug T) }
    | _ => none
  | .recorded =>
    match e.monitor with
    | .recording reason => some { e with monitor := .signalling, reason := some reason }
    | _ => none
  | .signalled =>
    match e.monitor with
    | .signalling => some { e with monitor := .done, scenario := e.scenario.signal }
    | _ => none
  | .dropped =>
    match e.monitor with
    | .spawned | .ticking _ _ | .recording _ =>
      if e.isAborted then some { e with monitor := .done } else none
    | _ => none

/-- A step of an execution. -/
def step (e : Execution) : ExecutionAct → Option Execution
  | .elapse d => some { e with scenario := e.scenario.elapse d }
  | .stop => some { e with stop := true }
  | .forward =>
    if e.stop && !e.scenario.isStopped then some { e with scenario := e.scenario.signal }
    else none
  | .scenario act =>
    match e.scenario, act with
    -- the clock and the stop signal are not the scenario's
    | _, .elapse _ | _, .stop => none
    | .running run, act =>
      (run.step P config act).map fun run => { e with scenario := .running run }
    | .failed _ _, _ => none
  | .monitor act => e.stepMonitor T config act
  | .abort =>
    match e.main with
    | .running => e.scenario.outcome?.map fun outcome => { e with main := .aborted outcome }
    | _ => none
  | .read =>
    match e.main with
    | .aborted outcome => some { e with main := .counting outcome e.reason }
    | _ => none
  | .count =>
    match e.main with
    | .counting outcome threshold =>
      some { e with main := .loading outcome threshold (Loading.start T e.scenario.world) }
    | _ => none
  | .load =>
    match e.main with
    | .loading outcome threshold loading =>
      (loading.load e.scenario.world).map fun loading =>
        { e with main := .loading outcome threshold loading }
    | _ => none
  | .report =>
    match e.main with
    | .loading outcome threshold loading =>
      loading.finish?.map fun metrics =>
        let execution := conclude config outcome threshold metrics
        { e with
          scenario := e.scenario.emit (.runCompleted execution.report.status.completion)
          main := .returned execution }
    | _ => none

/-- The executions of a configuration. -/
def machine (T : Telemetry) (P : Platform) (config : AppConfig) :
    Machine Execution ExecutionAct where
  step := step T P config

end Execution

section Steps

variable {T P config}

/-- A scenario that has returned stays as it is. -/
theorem Run.main_step {r r' : Run} {act : RunAct} {outcome : ScenarioOutcome}
    (h : r.step P config act = some r') (hmain : r.main = .returned outcome) :
    r'.main = .returned outcome := by
  obtain ⟨world, stop, tasks, main⟩ := r
  obtain rfl : main = .returned outcome := hmain
  cases act with
  | elapse d => exact Option.some.inj h ▸ rfl
  | stop => exact Option.some.inj h ▸ rfl
  | forward =>
    simp only [step, Option.ite_none_right_eq_some, Option.some.injEq] at h
    exact h.2 ▸ rfl
  | task i a =>
    simp only [step] at h
    split at h
    · cases h
    · obtain ⟨p, -, rfl⟩ := Option.map_eq_some_iff.mp h
      rfl
  | _ => simp [step] at h

namespace Execution

variable {e e' : Execution} {act : ExecutionAct} {acts : List ExecutionAct}

/-! ## What the steps do -/

theorem outcome?_signal (scenario : Scenario) : scenario.signal.outcome? = scenario.outcome? := by
  cases scenario <;> rfl

theorem outcome?_elapse (scenario : Scenario) (d : Duration) :
    (scenario.elapse d).outcome? = scenario.outcome? := by
  cases scenario <;> rfl

theorem outcome?_emit (scenario : Scenario) (event : LifecycleEvent) :
    (scenario.emit event).outcome? = scenario.outcome? := by
  cases scenario <;> rfl

/-- The steps of the monitor, in the order of `stepMonitor`. -/
inductive MonitorSteps (T : Telemetry) (config : AppConfig) (e : Execution) :
    MonitorAct → Execution → Prop where
  | start (hmonitor : e.monitor = .spawned) :
      MonitorSteps T config e .start { e with monitor := .ticking e.scenario.world.now 0 }
  | tick (created : Instant) (fired : ℕ) (hmonitor : e.monitor = .ticking created fired)
      (hdue : created + fired * Duration.fromSecs 1 ≤ e.scenario.world.now) :
      MonitorSteps T config e .tick
        { e with monitor := .loading created (fired + 1) (Loading.start T e.scenario.world) }
  | load (created : Instant) (fired : ℕ) (loading loading' : Loading)
      (hmonitor : e.monitor = .loading created fired loading)
      (hload : loading.load e.scenario.world = some loading') :
      MonitorSteps T config e .load { e with monitor := .loading created fired loading' }
  /-- the snapshot is within the limits -/
  | within (created : Instant) (fired : ℕ) (loading : Loading) (snapshot : MetricsSnapshot)
      (hmonitor : e.monitor = .loading created fired loading)
      (hfinish : loading.finish? = some snapshot)
      (hwithin : evaluate config.abort snapshot = none) :
      MonitorSteps T config e .evaluate { e with monitor := .ticking created fired }
  | violated (created : Instant) (fired : ℕ) (loading : Loading) (snapshot : MetricsSnapshot)
      (violation : ThresholdViolation) (hmonitor : e.monitor = .loading created fired loading)
      (hfinish : loading.finish? = some snapshot)
      (hviolation : evaluate config.abort snapshot = some violation) :
      MonitorSteps T config e .evaluate
        { e with monitor := .recording ("threshold:" ++ violation.debug T) }
  | recorded (reason : String) (hmonitor : e.monitor = .recording reason) :
      MonitorSteps T config e .recorded { e with monitor := .signalling, reason := some reason }
  | signalled (hmonitor : e.monitor = .signalling) :
      MonitorSteps T config e .signalled { e with monitor := .done, scenario := e.scenario.signal }
  | dropped (haborted : e.isAborted = true) :
      MonitorSteps T config e .dropped { e with monitor := .done }

/-- **Each step of the monitor leaves a phase of its own.** -/
theorem monitorSteps_of_step {a : MonitorAct} (h : e.stepMonitor T config a = some e') :
    MonitorSteps T config e a e' := by
  cases a with
  | start =>
    simp only [stepMonitor] at h
    split at h
    · next hmonitor =>
      obtain rfl := Option.some.inj h
      exact .start hmonitor
    · cases h
  | tick =>
    simp only [stepMonitor] at h
    split at h
    · next created fired hmonitor =>
      simp only [Option.ite_none_right_eq_some, Option.some.injEq] at h
      obtain ⟨hdue, rfl⟩ := h
      exact .tick created fired hmonitor hdue
    · cases h
  | load =>
    simp only [stepMonitor] at h
    split at h
    · next created fired loading hmonitor =>
      obtain ⟨loading', hload, rfl⟩ := Option.map_eq_some_iff.mp h
      exact .load created fired loading loading' hmonitor hload
    · cases h
  | evaluate =>
    simp only [stepMonitor] at h
    split at h
    · next created fired loading hmonitor =>
      obtain ⟨snapshot, hfinish, rfl⟩ := Option.map_eq_some_iff.mp h
      split
      · next hwithin => exact .within created fired loading snapshot hmonitor hfinish hwithin
      · next violation hviolation =>
        exact .violated created fired loading snapshot violation hmonitor hfinish hviolation
    · cases h
  | recorded =>
    simp only [stepMonitor] at h
    split at h
    · next reason hmonitor =>
      obtain rfl := Option.some.inj h
      exact .recorded reason hmonitor
    · cases h
  | signalled =>
    simp only [stepMonitor] at h
    split at h
    · next hmonitor =>
      obtain rfl := Option.some.inj h
      exact .signalled hmonitor
    · cases h
  | dropped =>
    simp only [stepMonitor] at h
    split at h
    -- the points where the monitor is suspended
    all_goals first
      | cases h
      | simp only [Option.ite_none_right_eq_some, Option.some.injEq] at h
        obtain ⟨haborted, rfl⟩ := h
        exact .dropped haborted

/-- The steps of an execution, in the order of `step`. -/
inductive Steps (T : Telemetry) (P : Platform) (config : AppConfig) (e : Execution) :
    ExecutionAct → Execution → Prop where
  | elapse (d : Duration) :
      Steps T P config e (.elapse d) { e with scenario := e.scenario.elapse d }
  | stop : Steps T P config e .stop { e with stop := true }
  | forward (hstop : e.stop = true) (hnew : e.scenario.isStopped = false) :
      Steps T P config e .forward { e with scenario := e.scenario.signal }
  | scenario (run run' : Run) (a : RunAct) (hrunning : e.scenario = .running run)
      (hstep : run.step P config a = some run') :
      Steps T P config e (.scenario a) { e with scenario := .running run' }
  | monitor (a : MonitorAct) (e' : Execution) (hmonitor : MonitorSteps T config e a e') :
      Steps T P config e (.monitor a) e'
  | abort (outcome : Outcome) (hmain : e.main = .running)
      (houtcome : e.scenario.outcome? = some outcome) :
      Steps T P config e .abort { e with main := .aborted outcome }
  | read (outcome : Outcome) (hmain : e.main = .aborted outcome) :
      Steps T P config e .read { e with main := .counting outcome e.reason }
  | count (outcome : Outcome) (threshold : Option String)
      (hmain : e.main = .counting outcome threshold) :
      Steps T P config e .count
        { e with main := .loading outcome threshold (Loading.start T e.scenario.world) }
  | load (outcome : Outcome) (threshold : Option String) (loading loading' : Loading)
      (hmain : e.main = .loading outcome threshold loading)
      (hload : loading.load e.scenario.world = some loading') :
      Steps T P config e .load { e with main := .loading outcome threshold loading' }
  | report (outcome : Outcome) (threshold : Option String) (loading : Loading)
      (metrics : MetricsSnapshot) (hmain : e.main = .loading outcome threshold loading)
      (hmetrics : loading.finish? = some metrics) :
      Steps T P config e .report
        { e with
          scenario := e.scenario.emit (.runCompleted
            (conclude config outcome threshold metrics).report.status.completion)
          main := .returned (conclude config outcome threshold metrics) }

/-- **Each step of the main task leaves a phase of its own**; the others are made in any. -/
theorem steps_of_step (h : e.step T P config act = some e') : Steps T P config e act e' := by
  cases act with
  | elapse d =>
    obtain rfl := Option.some.inj h
    exact .elapse d
  | stop =>
    obtain rfl := Option.some.inj h
    exact .stop
  | forward =>
    simp only [step, Option.ite_none_right_eq_some, Option.some.injEq, Bool.and_eq_true,
      Bool.not_eq_true'] at h
    obtain ⟨⟨hstop, hnew⟩, rfl⟩ := h
    exact .forward hstop hnew
  | scenario a =>
    simp only [step] at h
    split at h
    -- the clock and the stop signal are not the scenario's
    · cases h
    · cases h
    · next run hrunning _ _ =>
      obtain ⟨run', hstep, rfl⟩ := Option.map_eq_some_iff.mp h
      exact .scenario run run' _ hrunning hstep
    · cases h
  | monitor a => exact .monitor a e' (monitorSteps_of_step h)
  | abort =>
    simp only [step] at h
    split at h
    · next hmain =>
      obtain ⟨outcome, houtcome, rfl⟩ := Option.map_eq_some_iff.mp h
      exact .abort outcome hmain houtcome
    · cases h
  | read =>
    simp only [step] at h
    split at h
    · next outcome hmain =>
      obtain rfl := Option.some.inj h
      exact .read outcome hmain
    · cases h
  | count =>
    simp only [step] at h
    split at h
    · next outcome threshold hmain =>
      obtain rfl := Option.some.inj h
      exact .count outcome threshold hmain
    · cases h
  | load =>
    simp only [step] at h
    split at h
    · next outcome threshold loading hmain =>
      obtain ⟨loading', hload, rfl⟩ := Option.map_eq_some_iff.mp h
      exact .load outcome threshold loading loading' hmain hload
    · cases h
  | report =>
    simp only [step] at h
    split at h
    · next outcome threshold loading hmain =>
      obtain ⟨metrics, hmetrics, rfl⟩ := Option.map_eq_some_iff.mp h
      exact .report outcome threshold loading metrics hmain hmetrics
    · cases h

/-- The monitor leaves the main task alone, and it does nothing to the scenario but to stop it. -/
theorem monitor_cases {a : MonitorAct} (h : e.stepMonitor T config a = some e') :
    e'.main = e.main ∧ (e'.scenario = e.scenario ∨ e'.scenario = e.scenario.signal) ∧
      (e'.reason.isSome ↔ e.reason.isSome ∨ a = .recorded) := by
  cases monitorSteps_of_step h with
  | signalled => exact ⟨rfl, .inr rfl, by simp⟩
  | _ => exact ⟨rfl, .inl rfl, by simp⟩

/-- A step that is not the monitor's leaves the monitor and the reason alone, and keeps an outcome
of the scenario. -/
theorem keeps_of_not_monitor (h : e.step T P config act = some e')
    (hact : ∀ a, act ≠ .monitor a) :
    e'.monitor = e.monitor ∧ e'.reason = e.reason ∧
      ∀ outcome, e.scenario.outcome? = some outcome → e'.scenario.outcome? = some outcome := by
  cases steps_of_step h with
  | elapse d => exact ⟨rfl, rfl, fun _ => (outcome?_elapse e.scenario d).trans⟩
  | forward hstop => exact ⟨rfl, rfl, fun _ => (outcome?_signal e.scenario).trans⟩
  | scenario run run' a hrunning hstep =>
    refine ⟨rfl, rfl, fun outcome houtcome => ?_⟩
    -- a scenario with an outcome has returned
    rw [hrunning] at houtcome
    simp only [Scenario.outcome?] at houtcome ⊢
    split at houtcome
    · next hmain =>
      rw [Run.main_step hstep hmain]
      exact houtcome
    · cases houtcome
  | monitor a e' => exact absurd rfl (hact a)
  | report => exact ⟨rfl, rfl, fun _ => (outcome?_emit e.scenario _).trans⟩
  | stop | abort | read | count | load => exact ⟨rfl, rfl, fun _ => id⟩

/-- What a step does to the scenario. -/
inductive ScenarioCases (P : Platform) (config : AppConfig) (e e' : Execution) : Prop where
  /-- a step of the run, the clock and the stop signal included -/
  | steps (run run' : Run) (a : RunAct) (hs : e.scenario = .running run)
      (hstep : run.step P config a = some run') (hs' : e'.scenario = .running run')
      (hmain : e'.main = e.main)
  /-- the clock of a scenario that did not start -/
  | elapses (error : StartError) (world : World) (d : Duration)
      (hs : e.scenario = .failed error world)
      (hs' : e'.scenario = .failed error { world with now := world.now + d })
      (hmain : e'.main = e.main)
  /-- the end is announced -/
  | reports (outcome : Outcome) (threshold : Option String) (loading : Loading)
      (metrics : MetricsSnapshot) (hmain : e.main = .loading outcome threshold loading)
      (hmetrics : loading.finish? = some metrics)
      (hs' : e'.scenario = e.scenario.emit (.runCompleted
        (conclude config outcome threshold metrics).report.status.completion))
      (hmain' : e'.main = .returned (conclude config outcome threshold metrics))
  | same (hs : e'.scenario = e.scenario)
      (hmain : ∀ execution, e'.main = .returned execution ↔ e.main = .returned execution)

theorem scenarioCases_signal {scenario : Scenario} (hs : e.scenario = scenario)
    (hs' : e'.scenario = scenario.signal) (hmain : e'.main = e.main) :
    ScenarioCases P config e e' := by
  cases scenario with
  | failed error world => exact .same (hs'.trans hs.symm) fun _ => by rw [hmain]
  | running run => exact .steps run _ .stop hs rfl hs' hmain

theorem scenarioCases_monitor {a : MonitorAct} (h : e.stepMonitor T config a = some e') :
    ScenarioCases P config e e' := by
  obtain ⟨hmain, hsame | hsignal, -⟩ := monitor_cases h
  · exact .same hsame fun _ => by rw [hmain]
  · exact scenarioCases_signal rfl hsignal hmain

/-- **What a step does to the scenario.** -/
theorem scenario_cases (h : e.step T P config act = some e') : ScenarioCases P config e e' := by
  cases steps_of_step h with
  | elapse d =>
    cases hs : e.scenario with
    | failed error world =>
      exact .elapses error world d hs rfl rfl
    | running run =>
      exact .steps run _ (.elapse d) hs rfl rfl rfl
  | forward => exact scenarioCases_signal rfl rfl rfl
  | scenario run run' a hrunning hstep => exact .steps run run' a hrunning hstep rfl rfl
  | monitor a => exact scenarioCases_monitor h
  | report outcome threshold loading metrics hmain hmetrics =>
    exact .reports outcome threshold loading metrics hmain hmetrics rfl rfl
  | stop => exact .same rfl fun _ => Iff.rfl
  | abort _ hmain | read _ hmain | count _ _ hmain | load _ _ _ _ hmain =>
    exact .same rfl (by simp [hmain])

/-- What a step does to the main task. -/
inductive MainCases (T : Telemetry) (config : AppConfig) (act : ExecutionAct) (e e' : Execution) :
    Prop where
  | same (hmain : e'.main = e.main)
  | abort (outcome : Outcome) (hact : act = .abort) (houtcome : e.scenario.outcome? = some outcome)
      (hmain : e.main = .running) (hmain' : e'.main = .aborted outcome)
  | read (outcome : Outcome) (hmain : e.main = .aborted outcome)
      (hmain' : e'.main = .counting outcome e.reason)
  | count (outcome : Outcome) (threshold : Option String)
      (hmain : e.main = .counting outcome threshold)
      (hmain' : e'.main = .loading outcome threshold (Loading.start T e.scenario.world))
  | load (outcome : Outcome) (threshold : Option String) (loading loading' : Loading)
      (hmain : e.main = .loading outcome threshold loading)
      (hload : loading.load e.scenario.world = some loading')
      (hmain' : e'.main = .loading outcome threshold loading')
  | report (outcome : Outcome) (threshold : Option String) (loading : Loading)
      (metrics : MetricsSnapshot) (hmain : e.main = .loading outcome threshold loading)
      (hmetrics : loading.finish? = some metrics)
      (hmain' : e'.main = .returned (conclude config outcome threshold metrics))

/-- **What a step does to the main task.** -/
theorem main_cases (h : e.step T P config act = some e') : MainCases T config act e e' := by
  cases steps_of_step h with
  | monitor a => exact .same (monitor_cases h).1
  | abort outcome hmain houtcome => exact .abort outcome rfl houtcome hmain rfl
  | read outcome hmain => exact .read outcome hmain rfl
  | count outcome threshold hmain => exact .count outcome threshold hmain rfl
  | load outcome threshold loading loading' hmain hload =>
    exact .load outcome threshold loading loading' hmain hload rfl
  | report outcome threshold loading metrics hmain hmetrics =>
    exact .report outcome threshold loading metrics hmain hmetrics rfl
  | elapse | stop | forward | scenario => exact .same rfl

/-- **A step keeps an outcome of the scenario**, and only the monitor records a reason. -/
theorem keeps_step (h : e.step T P config act = some e') :
    (∀ outcome, e.scenario.outcome? = some outcome → e'.scenario.outcome? = some outcome) ∧
      (e'.reason.isSome ↔ e.reason.isSome ∨ act = .monitor .recorded) := by
  by_cases hact : ∃ a, act = .monitor a
  · obtain ⟨a, rfl⟩ := hact
    obtain ⟨-, hscenario, hreason⟩ := monitor_cases h
    refine ⟨fun outcome houtcome => ?_, by simpa using hreason⟩
    rcases hscenario with hsame | hsignal
    · rwa [hsame]
    · rwa [hsignal, outcome?_signal]
  · obtain ⟨-, hreason, houtcome⟩ := keeps_of_not_monitor h fun a ha => hact ⟨a, ha⟩
    refine ⟨houtcome, ?_⟩
    rw [hreason, or_iff_left fun ha => hact ⟨_, ha⟩]

/-- A reason is recorded by the monitor. -/
theorem reason_exec (h : (machine T P config).exec e acts = some e') :
    e'.reason.isSome ↔ e.reason.isSome ∨ .monitor .recorded ∈ acts := by
  induction acts generalizing e with
  | nil =>
    obtain rfl := Option.some.inj h
    simp
  | cons act acts ih =>
    obtain ⟨u, hstep, hrest⟩ := Machine.exec_cons.mp h
    rw [ih hrest, (keeps_step hstep).2, List.mem_cons, eq_comm (a := act), or_assoc]

/-! ## Reasons -/

/-- A reason names a violation that exceeds its limit. -/
def IsReason (T : Telemetry) (config : AppConfig) (reason : String) : Prop :=
  ∃ violation snapshot, ThresholdViolation.Exceeds config.abort snapshot violation ∧
    reason = "threshold:" ++ violation.debug T

/-- The reason that is recorded, or about to be. -/
structure Justified (T : Telemetry) (config : AppConfig) (e : Execution) : Prop where
  recording : ∀ reason, e.monitor = .recording reason → IsReason T config reason
  recorded : ∀ reason, e.reason = some reason → IsReason T config reason

theorem Justified.stepMonitor {a : MonitorAct} (he : e.Justified T config)
    (h : e.stepMonitor T config a = some e') : e'.Justified T config := by
  obtain ⟨hrecording, hrecorded⟩ := he
  cases monitorSteps_of_step h with
  | recorded reason hmonitor =>
    refine ⟨fun _ heq => (by cases heq), fun reason' heq => ?_⟩
    obtain rfl := Option.some.inj heq
    exact hrecording reason hmonitor
  | violated created fired loading snapshot violation _ _ hviolation =>
    refine ⟨fun reason' heq => ?_, hrecorded⟩
    obtain rfl := MonitorPhase.recording.inj heq
    exact ⟨violation, snapshot, exceeds_of_evaluate hviolation, rfl⟩
  | start | tick | load | within | signalled | dropped =>
    exact ⟨fun _ heq => (by cases heq), hrecorded⟩

/-- An execution starts with a run that starts, or with a scenario that has failed. -/
theorem exists_of_start {started : ℤ} {shuffle : ℕ → List Duration → List Duration}
    {options : SafetyOptions} {stop : Bool} {e₀ : Execution}
    (hstart : start config started shuffle options stop = .ok e₀) :
    validateWithOptions config options = .ok () ∧ ∃ scenario, e₀ = new scenario stop ∧
      ((∃ error, scenario = .failed error (World.initial stop)) ∨
        ∃ run, Run.start config started shuffle options stop = .ok run ∧
          scenario = .running run) := by
  rw [start] at hstart
  split at hstart
  · cases hstart
  next haccepted =>
  refine ⟨haccepted, ?_⟩
  split at hstart
  · cases hstart
  · next error _ _ => exact ⟨_, (Except.ok.inj hstart).symm, .inl ⟨error, rfl⟩⟩
  · next run hrun => exact ⟨_, (Except.ok.inj hstart).symm, .inr ⟨run, hrun, rfl⟩⟩

theorem refused_of_start {started : ℤ} {shuffle : ℕ → List Duration → List Duration}
    {options : SafetyOptions} {stop : Bool} {error : SafetyError}
    (hstart : start config started shuffle options stop = .error (.safety error)) :
    validateWithOptions config options = .error error := by
  rw [start] at hstart
  split at hstart
  · next hrefused => rw [hrefused, StartError.safety.inj (Except.error.inj hstart)]
  split at hstart <;> cases hstart

/-- An execution panics with its scenario. -/
theorem panicked_of_start {started : ℤ} {shuffle : ℕ → List Duration → List Duration}
    {options : SafetyOptions} {stop : Bool}
    (hstart : start config started shuffle options stop = .error .panicked) :
    Run.start config started shuffle options stop = .error .panicked := by
  rw [start] at hstart
  split at hstart
  · cases hstart
  split at hstart
  · assumption
  · cases hstart
  · cases hstart

/-- **A recorded reason names a limit that was exceeded**, in every execution. -/
theorem isReason_of_exec {started : ℤ} {shuffle : ℕ → List Duration → List Duration}
    {options : SafetyOptions} {stop : Bool} {e₀ : Execution} {reason : String}
    (hstart : start config started shuffle options stop = .ok e₀)
    (h : (machine T P config).exec e₀ acts = some e) (hreason : e.reason = some reason) :
    IsReason T config reason := by
  have hstep : ∀ s a t, Justified T config s → (machine T P config).step s a = some t →
      Justified T config t := by
    intro s a t hs hstep
    by_cases hact : ∃ b, a = .monitor b
    · obtain ⟨b, rfl⟩ := hact
      exact hs.stepMonitor hstep
    · obtain ⟨hmonitor, hsame, -⟩ := keeps_of_not_monitor hstep fun b hb => hact ⟨b, hb⟩
      exact ⟨fun r hr => hs.recording r (hmonitor ▸ hr), fun r hr => hs.recorded r (hsame ▸ hr)⟩
  obtain ⟨-, scenario, rfl, -⟩ := exists_of_start hstart
  exact (Machine.exec_invariant hstep ⟨by simp [new], by simp [new]⟩ h).recorded reason hreason

end Execution

end Steps

end TakBench
