import TakBench.Runner.Ending
import TakBench.Runner.Lifecycle

/-!
# The accounts of a report

The metrics of a report are loaded counter by counter. They are loaded after the scenario has
joined all its tasks, and a task that has returned counts nothing more; so the report shows the
metrics at the end of the execution, and what it shows is what all tasks have counted. Only a task
that panicked may have left a reader behind that still counts.

## Main definitions

* `Scenario.AtRest`: all tasks have returned
* `Execution.Rests`: the scenario is at rest, and the metrics of the report are its metrics
* `Execution.Tallied`: the counters are what the tasks have counted

## Main results

* `Run.metrics_step_of_returned`: nothing is counted once all tasks have returned
* `Execution.report_exact`: the metrics of a report
-/

namespace TakBench

variable {T : Telemetry} {P : Platform} {config : AppConfig}

/-- **Nothing is counted once all tasks have returned**, well or with a failure. -/
theorem Run.metrics_step_of_returned {r r' : Run} {act : RunAct}
    (hreturned : ∀ task ∈ r.tasks, ∃ result, task.state.result? = some (some result))
    (h : r.step P config act = some r') :
    r'.tasks = r.tasks ∧ r'.world.metrics = r.world.metrics := by
  rcases step_cases h with ⟨i, a, task, state, effects, -, hget, hstep, -⟩ | ⟨-, hidle⟩
  · -- no task makes a step
    obtain ⟨result, hresult⟩ := hreturned task (List.mem_of_getElem? hget)
    rw [Participant.step_of_returned hresult] at hstep
    cases hstep
  · refine ⟨hidle.tasks, ?_⟩
    unfold World.metrics
    rw [hidle.counters, hidle.recorded]

/-- What is loaded so far shows the metrics of any world with the same metrics. -/
theorem Loading.Shows.congr {w w' : World} {loading : Loading} (hl : loading.Shows T w)
    (h : w'.metrics = w.metrics) : loading.Shows T w' where
  p95 := hl.p95.trans (Telemetry.percentile_congr h.symm _)
  p99 := hl.p99.trans (Telemetry.percentile_congr h.symm _)
  counters counter hrest := by
    have hcounters : w'.counters = w.counters := congrArg Prod.fst h
    rw [hcounters]
    exact hl.counters counter hrest

/-- No connection of a participant that has returned is open. -/
theorem Participant.isOpen_of_returned {p : Participant} {result : Except Failure Unit}
    (h : p.result? = some (some result)) : p.isOpen = false := by
  obtain ⟨phase, attempt, recoveryStarted⟩ := p
  cases phase with
  | connected session => cases session <;> cases h
  | returned outcome => rfl
  | _ => cases h

/-- All tasks of the scenario have returned. -/
def Scenario.AtRest (scenario : Scenario) : Prop :=
  ∀ run, scenario = .running run →
    ∀ task ∈ run.tasks, ∃ result, task.state.result? = some (some result)

namespace Execution

variable {e e' e₀ : Execution} {act : ExecutionAct} {acts : List ExecutionAct}

/-! ## The end of the tasks -/

/-- **A scenario at rest stays so**, and its metrics stay. -/
theorem atRest_step (he : e.scenario.AtRest) (h : e.step T P config act = some e') :
    e'.scenario.AtRest ∧ e'.scenario.world.metrics = e.scenario.world.metrics := by
  cases scenario_cases h with
  | steps run run' a hs hstep hs' hmain =>
    obtain ⟨htasks, hmetrics⟩ := Run.metrics_step_of_returned (he run hs) hstep
    rw [hs, hs']
    refine ⟨fun other hother => ?_, hmetrics⟩
    obtain rfl := Scenario.running.inj hother
    rw [htasks]
    exact he run hs
  | elapses error world d hs hs' hmain =>
    rw [hs, hs']
    exact ⟨fun run hrun => (by cases hrun), rfl⟩
  | reports outcome threshold loading metrics hmain hmetrics hs' hmain' =>
    rw [hs']
    cases hs : e.scenario with
    | failed error world => exact ⟨fun run hrun => (by cases hrun), rfl⟩
    | running run =>
      refine ⟨fun other hother => ?_, rfl⟩
      obtain rfl := Scenario.running.inj hother
      exact he run hs
  | same hs hmain =>
    rw [hs]
    exact ⟨he, rfl⟩

/-- A task that panicked stays so. -/
theorem noPanic_of_step (h : e.step T P config act = some e') (hpanic : e'.NoPanic) :
    e.NoPanic := by
  intro run hs task htask hresult
  obtain ⟨i, hi⟩ := List.mem_iff_getElem?.mp htask
  -- the task is panicked after the step as well
  cases scenario_cases h with
  | steps run₁ run' a hs₁ hstep hs' hmain =>
    obtain rfl := Scenario.running.inj (hs.symm.trans hs₁)
    rcases Run.step_cases hstep with ⟨j, b, other, state, effects, -, hget, htaskStep, rfl⟩ |
      ⟨-, hidle⟩
    · by_cases hij : j = i
      · subst hij
        obtain rfl := Option.some.inj (hget.symm.trans hi)
        have hlt : j < run.tasks.length := (List.getElem?_eq_some_iff.mp hget).1
        exact hpanic _ hs' _ (List.mem_set hlt _) (Participant.result?_step hresult htaskStep)
      · refine hpanic _ hs' task (List.mem_of_getElem? (i := i) ?_) hresult
        rw [Run.advance, List.getElem?_set_ne hij, hi]
    · exact hpanic run' hs' task (hidle.tasks ▸ htask) hresult
  | elapses error world d hs₁ hs' hmain => cases hs.symm.trans hs₁
  | reports outcome threshold loading metrics hmain hmetrics hs' hmain' =>
    rw [hs] at hs'
    exact hpanic _ hs' task htask hresult
  | same hs' hmain => exact hpanic run (hs'.trans hs) task htask hresult

/-- A scenario with an outcome is at rest, unless a task has panicked. -/
theorem atRest_of_outcome {outcome : Outcome} (he : e.Joined) (hpanic : e.NoPanic)
    (houtcome : e.scenario.outcome? = some outcome) : e.scenario.AtRest := by
  intro run hs task htask
  rw [hs, Scenario.outcome?] at houtcome
  split at houtcome
  · next hmain =>
    have hjoined := he run hs
    rw [Run.JoinedDone, hmain] at hjoined
    obtain ⟨result, hresult, -⟩ := hjoined task htask
    cases result with
    | some result => exact ⟨result, hresult⟩
    | none => exact absurd hresult (hpanic run hs task htask)
  · cases houtcome

/-! ## The metrics of the report -/

/-- From the abort of the monitor on the scenario is at rest, and the report is made from its
metrics. -/
def Rests (T : Telemetry) (e : Execution) : Prop :=
  match e.main with
  | .running => True
  | .aborted _ | .counting _ _ => e.scenario.AtRest
  | .loading _ _ loading => e.scenario.AtRest ∧ loading.Shows T e.scenario.world
  | .returned execution =>
    e.scenario.AtRest ∧ execution.report.metrics = e.scenario.world.snapshot T

theorem Rests.step (he : e.Rests T) (hjoined : e.Joined) (hpanic : e.NoPanic)
    (h : e.step T P config act = some e') : e'.Rests T := by
  unfold Rests at he ⊢
  cases main_cases h with
  | same hmain =>
    rw [hmain]
    split at he
    · trivial
    · exact (atRest_step he h).1
    · exact (atRest_step he h).1
    · obtain ⟨hrest, hshows⟩ := he
      obtain ⟨hrest', hmetrics⟩ := atRest_step hrest h
      exact ⟨hrest', hshows.congr hmetrics⟩
    · obtain ⟨hrest, hreport⟩ := he
      obtain ⟨hrest', hmetrics⟩ := atRest_step hrest h
      exact ⟨hrest', hreport.trans (World.snapshot_congr hmetrics.symm)⟩
  | abort outcome hact houtcome hmain hmain' =>
    rw [hmain']
    exact (atRest_step (atRest_of_outcome hjoined hpanic houtcome) h).1
  | read outcome hmain hmain' =>
    rw [hmain] at he
    rw [hmain']
    exact (atRest_step he h).1
  | count outcome threshold hmain hmain' =>
    rw [hmain] at he
    rw [hmain']
    obtain ⟨hrest', hmetrics⟩ := atRest_step he h
    exact ⟨hrest', Loading.shows_start hmetrics.symm⟩
  | load outcome threshold loading loading' hmain hload hmain' =>
    rw [hmain] at he
    rw [hmain']
    obtain ⟨hrest, hshows⟩ := he
    obtain ⟨hrest', hmetrics⟩ := atRest_step hrest h
    exact ⟨hrest', (hshows.load rfl hload).congr hmetrics⟩
  | report outcome threshold loading metrics hmain hfinish hmain' =>
    rw [hmain] at he
    rw [hmain']
    obtain ⟨hrest, hshows⟩ := he
    obtain ⟨hrest', hmetrics⟩ := atRest_step hrest h
    exact ⟨hrest', (hshows.finish hfinish).trans (World.snapshot_congr hmetrics.symm)⟩

/-! ## The accounts -/

/-- The tasks of the scenario; one that did not start has none. -/
def tasks (e : Execution) : List Task :=
  match e.scenario with
  | .failed _ _ => []
  | .running run => run.tasks

/-- The counters are what the tasks have added and not taken. -/
def Tallied (config : AppConfig) (e : Execution) : Prop :=
  match e.scenario with
  | .failed _ world => ∀ counter, world.counters counter = 0
  | .running run => (∀ task ∈ run.tasks, Linked config task) ∧ run.Counted

theorem Tallied.step (he : e.Tallied config) (h : e.step T P config act = some e') :
    e'.Tallied config := by
  cases scenario_cases h with
  | steps run run' a hs hstep hs' hmain =>
    rw [Tallied, hs] at he
    obtain ⟨hlinked, hcounted⟩ := he
    rw [Tallied, hs']
    exact ⟨Run.linked_invariant.run_step hlinked hstep, Run.counted_step hlinked hcounted hstep⟩
  | elapses error world d hs hs' hmain =>
    rw [Tallied, hs] at he
    rw [Tallied, hs']
    exact he
  | reports outcome threshold loading metrics hmain hmetrics hs' hmain' =>
    unfold Tallied at he ⊢
    rw [hs']
    cases hs : e.scenario with
    | failed error world =>
      rw [hs] at he
      exact he
    | running run =>
      rw [hs] at he
      exact he
  | same hs hmain =>
    rw [Tallied, hs]
    exact he

theorem tallied_start {started : ℤ} {shuffle : ℕ → List Duration → List Duration}
    {options : SafetyOptions} {stop : Bool}
    (hstart : start config started shuffle options stop = .ok e₀) :
    e₀.Tallied config := by
  obtain ⟨-, _, rfl, ⟨error, rfl⟩ | ⟨run, hrun, rfl⟩⟩ := exists_of_start hstart
  · exact fun counter => rfl
  · obtain ⟨-, delays, rfl⟩ := Run.exists_of_mem_start hrun
    exact ⟨Run.linked_spawn delays stop, Run.spawn_counted delays stop⟩

/-- What the tasks have counted is in the counters. -/
theorem Tallied.counters (he : e.Tallied config) (counter : Counter) :
    e.scenario.world.counters counter +
        sumOver (Effect.subtracted counter) (e.tasks.map (·.log)) =
      sumOver (Effect.added counter) (e.tasks.map (·.log)) := by
  unfold Tallied at he
  unfold tasks
  split at he
  · next error world hs =>
    rw [hs]
    exact he counter
  · next run hs =>
    rw [hs]
    exact he.2 counter

theorem Tallied.consistent (he : e.Tallied config) : Consistent e.scenario.world.counters := by
  unfold Tallied at he
  split at he
  · next error world hs =>
    rw [hs]
    constructor <;> simp [Scenario.world, he]
  · next run hs =>
    rw [hs]
    exact Run.consistent_counters he.1 he.2

/-- Nothing is active at rest. -/
theorem Tallied.active_eq_zero (he : e.Tallied config) (hrest : e.scenario.AtRest) :
    e.scenario.world.counters .activeConnections = 0 := by
  unfold Tallied at he
  split at he
  · next error world hs =>
    rw [hs]
    exact he _
  · next run hs =>
    rw [hs]
    refine (Run.active_eq he.1 he.2).trans (List.countP_eq_zero.mpr fun task htask hopen => ?_)
    obtain ⟨result, hresult⟩ := hrest run hs task htask
    exact absurd hopen (by simp [Participant.isOpen_of_returned hresult])

theorem main_of_start {started : ℤ} {shuffle : ℕ → List Duration → List Duration}
    {options : SafetyOptions} {stop : Bool}
    (hstart : start config started shuffle options stop = .ok e₀) : e₀.main = .running := by
  obtain ⟨-, scenario, rfl, -⟩ := exists_of_start hstart
  rfl

theorem tallied_of_exec {started : ℤ} {shuffle : ℕ → List Duration → List Duration}
    {options : SafetyOptions} {stop : Bool}
    (hstart : start config started shuffle options stop = .ok e₀)
    (h : (machine T P config).exec e₀ acts = some e) : e.Tallied config :=
  Machine.exec_invariant (m := machine T P config) (fun _ _ _ he hstep => he.step hstep)
    (tallied_start hstart) h

/-- A report is made from the metrics of a scenario at rest, unless a task has panicked. -/
theorem metrics_of_returned {started : ℤ} {shuffle : ℕ → List Duration → List Duration}
    {options : SafetyOptions} {stop : Bool} {execution : RunExecution}
    (hstart : start config started shuffle options stop = .ok e₀)
    (h : (machine T P config).exec e₀ acts = some e) (hdone : e.main = .returned execution)
    (hpanic : e.NoPanic) :
    e.scenario.AtRest ∧ execution.report.metrics = e.scenario.world.snapshot T := by
  have hrests : e.Joined ∧ (e.NoPanic → e.Rests T) := by
    refine Machine.exec_invariant (m := machine T P config)
      (I := fun e => e.Joined ∧ (e.NoPanic → e.Rests T)) ?_ ⟨joined_start hstart, fun _ => ?_⟩ h
    · rintro s a t ⟨hjoined, hrests⟩ hstep
      refine ⟨hjoined.step hstep, fun hpanic => ?_⟩
      -- who has not panicked after the step has not before
      have hpanic' := noPanic_of_step hstep hpanic
      exact (hrests hpanic').step hjoined hpanic' hstep
    · rw [Rests, main_of_start hstart]
      trivial
  have hreport := hrests.2 hpanic
  rwa [Rests, hdone] at hreport

/-- **The metrics of a report** are the metrics at the end of the execution, unless a task has
panicked: each counter is what all tasks together have added and not taken, the connection counters
are consistent, and no connection is active any more. -/
theorem report_exact {started : ℤ} {shuffle : ℕ → List Duration → List Duration}
    {options : SafetyOptions} {stop : Bool} {execution : RunExecution}
    (hstart : start config started shuffle options stop = .ok e₀)
    (h : (machine T P config).exec e₀ acts = some e) (hdone : e.main = .returned execution)
    (hpanic : e.NoPanic) :
    execution.report.metrics = e.scenario.world.snapshot T ∧
    (∀ counter, execution.report.metrics.counters counter +
        sumOver (Effect.subtracted counter) (e.tasks.map (·.log)) =
      sumOver (Effect.added counter) (e.tasks.map (·.log))) ∧
    Consistent execution.report.metrics.counters ∧
    execution.report.metrics.counters .activeConnections = 0 := by
  have htallied := tallied_of_exec hstart h
  obtain ⟨hrest, hmetrics⟩ := metrics_of_returned hstart h hdone hpanic
  have hcounters : execution.report.metrics.counters = e.scenario.world.counters := by
    rw [hmetrics]
    rfl
  refine ⟨hmetrics, ?_, ?_, ?_⟩
  · rw [hcounters]
    exact htallied.counters
  · rw [hcounters]
    exact htallied.consistent
  · rw [hcounters]
    exact htallied.active_eq_zero hrest

namespace Refused

/-- One session, that the caller ends. -/
def connected : List ExecutionAct := connecting ++ stopped ++ leaving ++ reporting

/-- The connections that an execution reports, when every task has returned. -/
def reported (e : Execution) : Option ℕ :=
  match e.main with
  | .returned execution =>
    if e.tasks.all (fun task => task.state.result?.any Option.isSome) then
      some (execution.report.metrics.counters .connectionSuccesses)
    else none
  | _ => none

theorem exists_connected : ∃ e₀ e execution,
    start limited 0 (fun _ => id) {} false = .ok e₀ ∧
    (machine telemetry Reference.platform limited).exec e₀ connected = some e ∧
    e.main = .returned execution ∧ e.NoPanic ∧
    execution.report.metrics.counters .connectionSuccesses = 1 := by
  have h : (run connected).bind reported = some 1 := by decide +kernel
  obtain ⟨e, hrun, hreported⟩ := Option.bind_eq_some_iff.mp h
  rw [run] at hrun
  split at hrun
  · next e₀ hstart =>
    rw [reported] at hreported
    split at hreported
    · next execution hmain =>
      split at hreported
      · next hall =>
        refine ⟨e₀, e, execution, hstart, hrun, hmain, fun r hr task htask hresult => ?_,
          Option.some.inj hreported⟩
        have htasks : task ∈ e.tasks := by
          rw [tasks, hr]
          exact htask
        simpa [hresult] using List.all_eq_true.mp hall task htasks
      · cases hreported
    · cases hreported
  · cases hrun

end Refused

/-- The report of an execution with one session. -/
theorem report_exact_refused :
    ∃ e₀ acts e execution, start Refused.limited 0 (fun _ => id) {} false = .ok e₀ ∧
      (machine Refused.telemetry Reference.platform Refused.limited).exec e₀ acts = some e ∧
      e.main = .returned execution ∧
      execution.report.metrics.counters .connectionSuccesses = 1 ∧
      execution.report.metrics = e.scenario.world.snapshot Refused.telemetry ∧
      execution.report.metrics.counters .activeConnections = 0 := by
  obtain ⟨e₀, e, execution, hstart, hexec, hmain, hpanic, hone⟩ := Refused.exists_connected
  obtain ⟨hmetrics, -, -, hactive⟩ := report_exact hstart hexec hmain hpanic
  exact ⟨e₀, _, e, execution, hstart, hexec, hmain, hone, hmetrics, hactive⟩

end Execution

end TakBench
