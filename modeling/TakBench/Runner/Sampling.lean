import TakBench.Runner.Agreement
import TakBench.Scenario.Joining

/-!
# The last sample of the metrics

The limits are compared with the samples that the monitor takes, one each second, and not with the
metrics of the report. Once a scenario has ended well all its tasks are done, so the metrics of a
report that says passed are those at the moment when the monitor was aborted. They are within the
limits if the monitor has looked at them.

## Main definitions

* `World.metrics`, `World.snapshot`: the metrics, and a snapshot of them taken at once
* `Loading.Shows`: the part of a snapshot that is taken shows some metrics
* `Execution.Sampled`: the monitor has looked at the metrics since they changed last

## Main results

* `Run.metrics_step_of_done`: nothing is counted once all tasks are done
* `Execution.Settled.step`: a scenario that has ended well stays as it is
* `Execution.Samples.step`: a violation that the monitor has seen is recorded
* `Execution.passed_respects`: the metrics of a report that says passed
-/

namespace TakBench

variable {T : Telemetry} {P : Platform} {config : AppConfig}

/-! ## Snapshots of metrics that do not change -/

/-- The counters and the histograms. -/
def World.metrics (w : World) : (Counter → ℕ) × List (Histogram × Duration) :=
  (w.counters, w.recorded)

/-- A snapshot that is taken at once. -/
def World.snapshot (T : Telemetry) (w : World) : MetricsSnapshot where
  counters := w.counters
  deliveryP95Ms := T.percentile w (95 / 100)
  deliveryP99Ms := T.percentile w (99 / 100)

theorem Telemetry.percentile_congr {w w' : World} (h : w.metrics = w'.metrics) (q : ℚ) :
    T.percentile w q = T.percentile w' q := by
  have hrecorded : w.recorded = w'.recorded := congrArg Prod.snd h
  unfold percentile World.micros
  rw [hrecorded]

theorem World.snapshot_congr {w w' : World} (h : w.metrics = w'.metrics) :
    w.snapshot T = w'.snapshot T := by
  have hcounters : w.counters = w'.counters := congrArg Prod.fst h
  unfold snapshot
  rw [hcounters, Telemetry.percentile_congr h, Telemetry.percentile_congr h]

namespace Loading

variable {w w' : World} {loading loading' : Loading}

/-- What is loaded so far shows the metrics of a world. -/
structure Shows (T : Telemetry) (w : World) (loading : Loading) : Prop where
  p95 : loading.snapshot.deliveryP95Ms = T.percentile w (95 / 100)
  p99 : loading.snapshot.deliveryP99Ms = T.percentile w (99 / 100)
  counters : ∀ counter, counter ∉ loading.rest →
    loading.snapshot.counters counter = w.counters counter

/-- All counters are still to be loaded. -/
theorem shows_start (h : w'.metrics = w.metrics) : (start T w').Shows T w where
  p95 := Telemetry.percentile_congr h _
  p99 := Telemetry.percentile_congr h _
  counters counter hrest := by
    refine absurd ?_ hrest
    cases counter <;> simp [start]

theorem Shows.load (hl : loading.Shows T w) (h : w'.metrics = w.metrics)
    (hload : loading.load w' = some loading') : loading'.Shows T w := by
  obtain ⟨snapshot, rest⟩ := loading
  cases rest with
  | nil => cases hload
  | cons counter rest =>
    obtain rfl := Option.some.inj hload
    refine ⟨hl.p95, hl.p99, fun other hother => ?_⟩
    have hcounters : w'.counters = w.counters := congrArg Prod.fst h
    show Function.update snapshot.counters counter (w'.counters counter) other = _
    by_cases heq : other = counter
    · subst heq
      rw [Function.update_self, hcounters]
    · rw [Function.update_of_ne heq]
      apply hl.counters
      rw [List.mem_cons]
      rintro (heq' | hmem)
      · exact heq heq'
      · exact hother hmem

/-- **A snapshot of metrics that do not change shows them.** -/
theorem Shows.finish {snapshot : MetricsSnapshot} (hl : loading.Shows T w)
    (hfinish : loading.finish? = some snapshot) : snapshot = w.snapshot T := by
  unfold finish? at hfinish
  split at hfinish
  · next hrest =>
    obtain rfl := Option.some.inj hfinish
    have hcounters : loading.snapshot.counters = w.counters := by
      funext counter
      apply hl.counters
      rw [List.isEmpty_iff.mp hrest]
      exact List.not_mem_nil
    obtain ⟨⟨counters, p95, p99⟩, rest⟩ := loading
    obtain rfl : counters = w.counters := hcounters
    obtain rfl : p95 = _ := hl.p95
    obtain rfl : p99 = _ := hl.p99
    rfl
  · cases hfinish

end Loading

/-! ## Tasks that are done -/

theorem Participant.step_of_returned {participant : ParticipantConfig} {w : World}
    {p : Participant} {result : Except Failure Unit} {act : ParticipantAct}
    (h : p.result? = some (some result)) : p.step P participant config w act = none := by
  obtain ⟨phase, attempt, recoveryStarted⟩ := p
  cases phase with
  | returned outcome => exact step_eq_none (.inl ⟨outcome, rfl⟩)
  | connected session => cases session <;> cases h
  | _ => cases h

namespace Run

variable {r r' : Run} {act : RunAct}

/-- A task that is done without a failure has returned. -/
theorem DoneWith.returned {task : Task} (h : DoneWith [] task) :
    task.state.result? = some (some (.ok ())) := by
  obtain ⟨result, hresult, hfailure⟩ := h
  have hnone : taskFailure task.participant.id result = [] := List.subset_nil.mp hfailure
  cases result with
  | none => cases hnone
  | some result =>
    cases result with
    | ok => exact hresult
    | error failure => cases hnone

/-- **Nothing is counted once all tasks are done.** -/
theorem metrics_step_of_done
    (hdone : ∀ task ∈ r.tasks, task.state.result? = some (some (.ok ())))
    (h : r.step P config act = some r') :
    r'.tasks = r.tasks ∧ r'.world.metrics = r.world.metrics := by
  rcases step_cases h with ⟨i, a, task, state, effects, -, hget, hstep, -⟩ | ⟨-, hidle⟩
  · -- no task makes a step
    rw [Participant.step_of_returned (hdone task (List.mem_of_getElem? hget))] at hstep
    cases hstep
  · refine ⟨hidle.tasks, ?_⟩
    unfold World.metrics
    rw [hidle.counters, hidle.recorded]

end Run

/-- Is the monitor in the middle of a sample? -/
def MonitorPhase.isSampling : MonitorPhase → Bool
  | .loading _ _ _ | .recording _ => true
  | _ => false

namespace Execution

variable {e e' e₀ : Execution} {act : ExecutionAct} {acts : List ExecutionAct} {w : World}

/-! ## A scenario that has ended well -/

/-- The tasks that the scenario has joined are done. -/
def Joined (e : Execution) : Prop := ∀ run, e.scenario = .running run → run.JoinedDone

theorem Joined.step (he : e.Joined) (h : e.step T P config act = some e') : e'.Joined := by
  cases scenario_cases h with
  | steps run run' a hs hstep hs' hmain =>
    intro other hother
    obtain rfl := Scenario.running.inj (hs'.symm.trans hother)
    exact Run.joinedDone_step (he run hs) hstep
  | elapses error world d hs hs' hmain =>
    intro other hother
    cases hs'.symm.trans hother
  | reports outcome threshold loading metrics hmain hmetrics hs' hmain' =>
    intro other hother
    rw [hs'] at hother
    cases hscenario : e.scenario with
    | failed error world => rw [hscenario] at hother; cases hother
    | running run =>
      rw [hscenario] at hother
      obtain rfl := Scenario.running.inj hother
      exact he run hscenario
  | same hs hmain =>
    intro other hother
    exact he other (hs ▸ hother)

theorem joined_start {started : ℤ} {shuffle : ℕ → List Duration → List Duration}
    {options : SafetyOptions} {stop : Bool}
    (hstart : start config started shuffle options stop = .ok e₀) : e₀.Joined := by
  obtain ⟨-, scenario, rfl, hscenario⟩ := exists_of_start hstart
  intro run hrun
  rcases hscenario with ⟨error, rfl⟩ | ⟨run', hstart', rfl⟩
  · cases hrun
  · obtain rfl := Scenario.running.inj hrun
    obtain ⟨-, delays, rfl⟩ := Run.exists_of_mem_start hstart'
    exact Run.joinedDone_spawn delays stop

/-- The scenario has ended well, with the metrics of a world. -/
def Settled (w : World) (e : Execution) : Prop :=
  ∃ run, e.scenario = .running run ∧ run.world.metrics = w.metrics ∧
    ∀ task ∈ run.tasks, task.state.result? = some (some (.ok ()))

theorem Settled.metrics (he : e.Settled w) : e.scenario.world.metrics = w.metrics := by
  obtain ⟨run, hs, hmetrics, -⟩ := he
  rw [hs]
  exact hmetrics

/-- **A scenario that has ended well stays as it is.** -/
theorem Settled.step (he : e.Settled w) (h : e.step T P config act = some e') :
    e'.Settled w := by
  obtain ⟨run, hrun, hmetrics, hdone⟩ := he
  cases scenario_cases h with
  | steps run₁ run₂ a hs hstep hs' hmain =>
    obtain rfl := Scenario.running.inj (hrun.symm.trans hs)
    obtain ⟨htasks, hsame⟩ := Run.metrics_step_of_done hdone hstep
    exact ⟨run₂, hs', hsame.trans hmetrics, htasks ▸ hdone⟩
  | elapses error world d hs hs' hmain => cases hrun.symm.trans hs
  | reports outcome threshold loading metrics hmain hmetrics' hs' hmain' =>
    rw [hrun] at hs'
    exact ⟨_, hs', hmetrics, hdone⟩
  | same hs hmain => exact ⟨run, hs.trans hrun, hmetrics, hdone⟩

/-- A scenario without a failure of a participant has ended well. -/
theorem settled_of_isClean {outcome : Outcome} (he : e.Joined)
    (houtcome : e.scenario.outcome? = some outcome) (hclean : outcome.isClean = true) :
    e.Settled e.scenario.world := by
  obtain ⟨o, rfl, -, hfailures⟩ := Outcome.isClean_iff.mp hclean
  cases hs : e.scenario with
  | failed error world => rw [hs] at houtcome; cases houtcome
  | running run =>
    refine ⟨run, hs, rfl, ?_⟩
    have hjoined := he run hs
    rw [hs] at houtcome
    simp only [Scenario.outcome?] at houtcome
    split at houtcome
    · next o' hmain =>
      obtain rfl := Except.ok.inj (Option.some.inj houtcome)
      rw [Run.JoinedDone, hmain] at hjoined
      intro task htask
      apply Run.DoneWith.returned
      have hdone := hjoined task htask
      rwa [hfailures] at hdone
    · cases houtcome

/-! ## The metrics of the report -/

/-- The main task reports the metrics of a world. -/
def Reports (T : Telemetry) (w : World) (e : Execution) : Prop :=
  match e.main with
  | .loading _ _ loading => loading.Shows T w
  | .returned execution => execution.report.metrics = w.snapshot T
  | _ => True

theorem Reports.step (he : e.Reports T w) (hw : e.Settled w)
    (h : e.step T P config act = some e') : e'.Reports T w := by
  unfold Reports at he ⊢
  cases main_cases h with
  | same hmain => rwa [hmain]
  | abort outcome hact houtcome hmain hmain' => rw [hmain']; trivial
  | read outcome hmain hmain' => rw [hmain']; trivial
  | count outcome threshold hmain hmain' =>
    rw [hmain']
    exact Loading.shows_start hw.metrics
  | load outcome threshold loading loading' hmain hload hmain' =>
    rw [hmain] at he
    rw [hmain']
    exact he.load hw.metrics hload
  | report outcome threshold loading metrics hmain hmetrics hmain' =>
    rw [hmain] at he
    rw [hmain']
    exact he.finish hmetrics

/-! ## The samples of the monitor -/

/-- The monitor looks at the metrics of a world, and records a violation that it sees. -/
def Samples (T : Telemetry) (config : AppConfig) (w : World) (e : Execution) : Prop :=
  match e.monitor with
  | .spawned => False
  | .ticking _ _ => evaluate config.abort (w.snapshot T) = none
  | .loading _ _ loading => loading.Shows T w
  | .recording _ => True
  | .signalling | .done => e.reason.isSome

theorem isAborted_step (he : e.isAborted = true) (h : e.step T P config act = some e') :
    e'.isAborted = true := by
  unfold isAborted at he ⊢
  cases main_cases h with
  | same hmain => rwa [hmain]
  | abort outcome hact houtcome hmain hmain' => rw [hmain']
  | read outcome hmain hmain' => rw [hmain']
  | count outcome threshold hmain hmain' => rw [hmain']
  | load outcome threshold loading loading' hmain hload hmain' => rw [hmain']
  | report outcome threshold loading metrics hmain hmetrics hmain' => rw [hmain']

/-- **A violation that the monitor has seen is recorded**, unless the monitor is aborted. -/
theorem Samples.step (he : e.Samples T config w) (hw : e.scenario.world.metrics = w.metrics)
    (h : e.step T P config act = some e') : e'.isAborted = true ∨ e'.Samples T config w := by
  by_cases hact : ∃ a, act = .monitor a
  · obtain ⟨a, rfl⟩ := hact
    unfold Samples at he
    cases monitorSteps_of_step h with
    | start hmonitor =>
      simp only [hmonitor] at he
    | tick created fired hmonitor => exact .inr (Loading.shows_start hw)
    | load created fired loading loading' hmonitor hload =>
      simp only [hmonitor] at he
      exact .inr (he.load hw hload)
    | within created fired loading snapshot hmonitor hfinish hwithin =>
      -- the snapshot shows the metrics, so these are within the limits
      simp only [hmonitor] at he
      obtain rfl := he.finish hfinish
      exact .inr hwithin
    | violated => exact .inr trivial
    | recorded reason hmonitor => exact .inr rfl
    | signalled hmonitor =>
      simp only [hmonitor] at he
      exact .inr he
    | dropped haborted => exact .inl haborted
  · obtain ⟨hmonitor, hreason, -⟩ := keeps_of_not_monitor h fun a ha => hact ⟨a, ha⟩
    right
    unfold Samples at he ⊢
    rwa [hmonitor, hreason]

/-- The reason that is recorded makes it into the report. -/
def Aborts (e : Execution) : Prop :=
  match e.main with
  | .running | .aborted _ => e.reason.isSome
  | .counting _ threshold | .loading _ threshold _ => threshold.isSome
  | .returned execution => execution.report.status ≠ .passed

theorem Aborts.step (he : e.Aborts) (h : e.step T P config act = some e') : e'.Aborts := by
  -- a reason that is recorded stays so, and the main task reads it after the abort
  have hkeep : e.reason.isSome → e'.reason.isSome := by
    intro hreason
    exact (keeps_step h).2.mpr (.inl hreason)
  unfold Aborts at he ⊢
  cases main_cases h with
  | same hmain =>
    rw [hmain]
    split at he
    · exact hkeep he
    · exact hkeep he
    · exact he
    · exact he
    · exact he
  | abort outcome hact houtcome hmain hmain' =>
    rw [hmain] at he
    rw [hmain']
    exact hkeep he
  | read outcome hmain hmain' =>
    rw [hmain] at he
    rw [hmain']
    exact he
  | count outcome threshold hmain hmain' =>
    rw [hmain] at he
    rw [hmain']
    exact he
  | load outcome threshold loading loading' hmain hload hmain' =>
    rw [hmain] at he
    rw [hmain']
    exact he
  | report outcome threshold loading metrics hmain hmetrics hmain' =>
    rw [hmain] at he
    rw [hmain']
    intro hpassed
    obtain rfl := (status_conclude.mp hpassed).1
    cases he

/-- A sample that begins now looks at the metrics of now. -/
theorem samples_tick (h : e.step T P config (.monitor .tick) = some e') :
    e'.Samples T config e.scenario.world := by
  cases steps_of_step h with
  | monitor _ _ hmonitor =>
    cases hmonitor with
    | tick created fired => exact Loading.shows_start rfl

/-- A step that changes no counter and no histogram. -/
def KeepsMetrics (T : Telemetry) (P : Platform) (config : AppConfig) (e : Execution)
    (act : ExecutionAct) : Prop :=
  ∀ e', e.step T P config act = some e' → e'.scenario.world.metrics = e.scenario.world.metrics

/-- The monitor has begun a sample since the metrics changed last, and it is not in the middle of
one. -/
def Sampled (T : Telemetry) (P : Platform) (config : AppConfig) (e₀ : Execution)
    (acts : List ExecutionAct) : Prop :=
  ∃ before sampling e₁ e₂, acts = before ++ .monitor .tick :: sampling ∧
    (machine T P config).exec e₀ before = some e₁ ∧
    (machine T P config).exec e₁ (.monitor .tick :: sampling) = some e₂ ∧
    (machine T P config).Along (KeepsMetrics T P config) e₁ (.monitor .tick :: sampling) ∧
    e₂.monitor.isSampling = false

/-- What the monitor has looked at is within the limits, or the violation is recorded. -/
theorem within_of_sampled (hsampled : Sampled T P config e₀ acts)
    (h : (machine T P config).exec e₀ acts = some e) (hrunning : e.isAborted = false) :
    evaluate config.abort (e.scenario.world.snapshot T) = none ∨ e.reason.isSome := by
  obtain ⟨before, sampling, e₁, e₂, rfl, hbefore, hsampling, hkeeps, hidle⟩ := hsampled
  obtain ⟨e₁', hbefore', hafter⟩ := Machine.exists_of_exec_append h
  obtain rfl := Option.some.inj (hbefore.symm.trans hbefore')
  obtain rfl := Option.some.inj (hafter.symm.trans hsampling)
  obtain ⟨u, htick, hrest⟩ := Machine.exec_cons.mp hafter
  obtain ⟨hkeep, hkeeps⟩ := (Machine.along_cons htick).mp hkeeps
  -- from the tick on, the monitor looks at the metrics of the tick
  have hlooks : e.scenario.world.metrics = e₁.scenario.world.metrics ∧
      (e.isAborted = true ∨ e.Samples T config e₁.scenario.world) := by
    refine Machine.exec_invariant_along (m := machine T P config)
      (I := fun e => e.scenario.world.metrics = e₁.scenario.world.metrics ∧
        (e.isAborted = true ∨ e.Samples T config e₁.scenario.world)) ?_ hkeeps
      ⟨hkeep u htick, .inr (samples_tick (P := P) htick)⟩ hrest
    rintro s a t ⟨hmetrics, hs⟩ hkeeps hstep
    refine ⟨(hkeeps t hstep).trans hmetrics, ?_⟩
    rcases hs with haborted | hs
    · exact .inl (isAborted_step haborted hstep)
    · exact hs.step hmetrics hstep
  obtain ⟨hmetrics, haborted | hlooks⟩ := hlooks
  · rw [hrunning] at haborted
    cases haborted
  · rw [World.snapshot_congr hmetrics]
    -- at the end the monitor is not in the middle of a sample
    unfold Samples at hlooks
    split at hlooks
    · exact hlooks.elim
    · exact .inl hlooks
    · next hmonitor => rw [hmonitor] at hidle; cases hidle
    · next hmonitor => rw [hmonitor] at hidle; cases hidle
    · exact .inr hlooks
    · exact .inr hlooks

/-- An execution that has returned has aborted its monitor. -/
theorem exists_abort (hrunning : e₀.main = .running)
    (h : (machine T P config).exec e₀ acts = some e) (haborted : e.isAborted = true) :
    ∃ before after e₁ e₂ outcome, acts = before ++ .abort :: after ∧
      (machine T P config).exec e₀ before = some e₁ ∧ e₁.main = .running ∧
      e₁.scenario.outcome? = some outcome ∧ e₁.step T P config .abort = some e₂ ∧
      e₂.main = .aborted outcome ∧ (machine T P config).exec e₂ after = some e := by
  induction acts generalizing e₀ with
  | nil =>
    obtain rfl := Option.some.inj h
    rw [isAborted, hrunning] at haborted
    cases haborted
  | cons act acts ih =>
    obtain ⟨u, hstep, hrest⟩ := Machine.exec_cons.mp h
    cases main_cases hstep with
    | same hmain =>
      obtain ⟨before, after, e₁, e₂, outcome, rfl, hbefore, hconclusion⟩ :=
        ih (hmain.trans hrunning) hrest
      exact ⟨act :: before, after, e₁, e₂, outcome, rfl, Machine.exec_step hstep hbefore,
        hconclusion⟩
    | abort outcome hact houtcome hmain hmain' =>
      -- the first abort is the only one
      subst hact
      exact ⟨[], acts, e₀, u, outcome, rfl, rfl, hrunning, houtcome, hstep, hmain', hrest⟩
    | read outcome hmain hmain' => cases hrunning.symm.trans hmain
    | count outcome threshold hmain hmain' => cases hrunning.symm.trans hmain
    | load outcome threshold loading loading' hmain hload hmain' =>
      cases hrunning.symm.trans hmain
    | report outcome threshold loading metrics hmain hmetrics hmain' =>
      cases hrunning.symm.trans hmain

/-- **The metrics of a report that says passed** are those at the moment when the monitor was
aborted, and they are within the limits if the monitor has looked at them. -/
theorem passed_respects {started : ℤ} {shuffle : ℕ → List Duration → List Duration}
    {options : SafetyOptions} {stop : Bool} {execution : RunExecution}
    (hstart : start config started shuffle options stop = .ok e₀)
    (h : (machine T P config).exec e₀ acts = some e) (hdone : e.main = .returned execution)
    (hpassed : execution.report.status = .passed) :
    ∃ before after e₁, acts = before ++ .abort :: after ∧
      (machine T P config).exec e₀ before = some e₁ ∧
      execution.report.metrics = e₁.scenario.world.snapshot T ∧
      (Sampled T P config e₀ before →
        evaluate config.abort execution.report.metrics = none) := by
  have hjoined : e₀.Joined := joined_start hstart
  have hrunning : e₀.main = .running := by
    obtain ⟨-, scenario, rfl, -⟩ := exists_of_start hstart
    rfl
  have hconcludes : e.Concludes config := by
    refine Machine.exec_invariant (m := machine T P config) (fun _ _ _ he hstep => he.step hstep)
      ?_ h
    rw [Concludes, hrunning]
    trivial
  obtain ⟨before, after, e₁, e₂, outcome, rfl, hbefore, hmain₁, houtcome, habort, hmain₂, hafter⟩ :=
    exists_abort hrunning h (by rw [isAborted, hdone])
  refine ⟨before, after, e₁, rfl, hbefore, ?_⟩
  -- the outcome of the abort is the outcome of the report
  have hsame : e.scenario.outcome? = some outcome := by
    refine Machine.exec_invariant (m := machine T P config)
      (I := fun e => e.scenario.outcome? = some outcome)
      (fun _ _ _ he hstep => (keeps_step hstep).1 _ he) ?_ hafter
    exact (keeps_step habort).1 _ houtcome
  rw [Concludes, hdone] at hconcludes
  obtain ⟨outcome', threshold, metrics, ⟨houtcome', -⟩, rfl⟩ := hconcludes
  obtain rfl := Option.some.inj (hsame.symm.trans houtcome')
  have hclean : outcome.isClean = true := (status_conclude.mp hpassed).2
  -- so the scenario has ended well, and its metrics do not change any more
  have hjoined₁ : e₁.Joined := Machine.exec_invariant (m := machine T P config)
    (fun _ _ _ he hstep => he.step hstep) hjoined hbefore
  have hsettled : e₁.Settled e₁.scenario.world := settled_of_isClean hjoined₁ houtcome hclean
  have hreports : e.Settled e₁.scenario.world ∧ e.Reports T e₁.scenario.world := by
    refine Machine.exec_invariant (m := machine T P config)
      (I := fun e => e.Settled e₁.scenario.world ∧ e.Reports T e₁.scenario.world)
      (fun _ _ _ he hstep => ⟨he.1.step hstep, he.2.step he.1 hstep⟩) ⟨hsettled.step habort, ?_⟩
      hafter
    rw [Reports, hmain₂]
    trivial
  have hmetrics := hreports.2
  rw [Reports, hdone] at hmetrics
  refine ⟨hmetrics, fun hsampled => ?_⟩
  rcases within_of_sampled hsampled hbefore (by rw [isAborted, hmain₁]) with hwithin | hreason
  · rw [hmetrics]
    exact hwithin
  · -- a violation that is recorded before the abort is read
    have haborts : e.Aborts := by
      refine Machine.exec_invariant (m := machine T P config) (fun _ _ _ he hstep => he.step hstep)
        (Aborts.step ?_ habort) hafter
      rw [Aborts, hmain₁]
      exact hreason
    rw [Aborts, hdone] at haborts
    exact absurd hpassed haborts

/-! ## A batch that is dropped at the deadline -/

namespace Batching

def peer : ParticipantConfig := { id := "peer", role := .sendOnly }

/-- One event is made, and the batch waits for a second one. -/
def batched (duration : Duration) (limit : ℕ) : AppConfig where
  authorization := { acknowledged := true }
  run := { duration, gpsInterval := Duration.fromSecs 1 }
  participants := [peer]
  scenario :=
    { fragmentation := { eventsPerWrite := 2 }
      invalid := { enabled := true, kind := some .malformedXml, maxEvents := some 1 } }
  abort := { maxDroppedMessages := some limit }

/-- The monitor looks at the metrics. -/
def sample : List ExecutionAct :=
  .monitor .tick :: List.replicate 13 (.monitor .load) ++ [.monitor .evaluate]

/-- The participant connects and makes an event, while the monitor looks at each second. -/
def batching : List ExecutionAct :=
  .monitor .start :: sample ++
    [.scenario (.task 0 .start), .scenario (.task 0 .delayOver), .scenario (.task 0 .enterLoop),
      .scenario (.task 0 (.connected 0)), .scenario (.task 0 .sampled),
      .scenario (.task 0 (.session (.barrier .check))), .elapse (Duration.fromSecs 1)] ++
    sample ++ [.scenario (.task 0 (.session (.sender (.tick 0 7))))]

/-- The batch with the event is dropped at the deadline. -/
def dropping (duration : Duration) : List ExecutionAct :=
  [.elapse (duration - Duration.fromSecs 1),
    .scenario (.task 0 (.session (.sender .deadline))), .scenario (.task 0 .sessionOver),
    .scenario (.join 0), .scenario .evaluate]

def reporting : List ExecutionAct := .read :: .count :: List.replicate 13 .load ++ [.report]

/-- The execution up to some acts. -/
def run (config : AppConfig) (acts : List ExecutionAct) : Option Execution :=
  match start config 0 (fun _ => id) {} false with
  | .ok e => (machine Refused.telemetry Reference.platform config).exec e acts
  | .error _ => none

/-- The status of the report, the events dropped in it, and whether it violates a limit. -/
def verdict (config : AppConfig) (e : Execution) : Option (RunStatus × ℕ × Bool) :=
  match e.main with
  | .returned execution =>
    some (execution.report.status, execution.report.metrics.counters .droppedMessages,
      (evaluate config.abort execution.report.metrics).isSome)
  | _ => none

theorem exists_of_run {acts : List ExecutionAct} (h : Batching.run config acts = some e) :
    ∃ e₀, start config 0 (fun _ => id) {} false = .ok e₀ ∧
      (machine Refused.telemetry Reference.platform config).exec e₀ acts = some e := by
  rw [run] at h
  split at h
  · next e₀ hstart => exact ⟨e₀, hstart, h⟩
  · cases h

theorem exists_of_verdict {status : RunStatus} {dropped : ℕ} {violates : Bool}
    (h : (Batching.run config acts).bind (verdict config) = some (status, dropped, violates)) :
    ∃ e₀ e execution, start config 0 (fun _ => id) {} false = .ok e₀ ∧
      (machine Refused.telemetry Reference.platform config).exec e₀ acts = some e ∧
      e.main = .returned execution ∧ execution.report.status = status ∧
      execution.report.metrics.counters .droppedMessages = dropped ∧
      (evaluate config.abort execution.report.metrics).isSome = violates := by
  obtain ⟨e, hrun, hverdict⟩ := Option.bind_eq_some_iff.mp h
  obtain ⟨e₀, hstart, hexec⟩ := exists_of_run hrun
  rw [verdict] at hverdict
  split at hverdict
  · next execution hmain =>
    simp only [Option.some.injEq, Prod.mk.injEq] at hverdict
    obtain ⟨hstatus, hdropped, hviolates⟩ := hverdict
    exact ⟨e₀, e, execution, hstart, hexec, hmain, hstatus, hdropped, hviolates⟩
  · cases hverdict

/-- A sample is made by the monitor. -/
theorem exists_of_mem_sample {act : ExecutionAct} (h : act ∈ sample) : ∃ a, act = .monitor a := by
  rcases List.mem_append.mp h with h | h
  · rcases List.mem_cons.mp h with rfl | h
    · exact ⟨.tick, rfl⟩
    · exact ⟨.load, List.eq_of_mem_replicate h⟩
  · exact ⟨.evaluate, List.mem_singleton.mp h⟩

/-- The monitor changes no metrics. -/
theorem keepsMetrics_monitor (e : Execution) (a : MonitorAct) :
    KeepsMetrics T P config e (.monitor a) := by
  intro e' h
  obtain ⟨-, hsame | hsignal, -⟩ := monitor_cases h
  · rw [hsame]
  · rw [hsignal]
    cases e.scenario <;> rfl

end Batching

/-- A report that says passed, with metrics that the monitor has looked at. -/
theorem passed_respects_sampled :
    ∃ e₀ acts e execution,
      start (Batching.batched (Duration.fromSecs 2) 1) 0 (fun _ => id) {} false = .ok e₀ ∧
      (machine Refused.telemetry Reference.platform
        (Batching.batched (Duration.fromSecs 2) 1)).exec e₀ acts = some e ∧
      e.main = .returned execution ∧ execution.report.status = .passed ∧
      execution.report.metrics.counters .droppedMessages = 1 ∧
      evaluate (Batching.batched (Duration.fromSecs 2) 1).abort execution.report.metrics =
        none := by
  obtain ⟨e₀, e, execution, hstart, hexec, hdone, hpassed, hdropped, -⟩ :=
    Batching.exists_of_verdict (show (Batching.run (Batching.batched (Duration.fromSecs 2) 1)
      ((Batching.batching ++ Batching.dropping (Duration.fromSecs 2) ++ Batching.sample) ++
        .abort :: Batching.reporting)).bind (Batching.verdict _) = some (.passed, 1, false) by
      decide +kernel)
  refine ⟨e₀, _, e, execution, hstart, hexec, hdone, hpassed, hdropped, ?_⟩
  obtain ⟨before, after, e₁, hacts, hbefore, -, hrespects⟩ :=
    passed_respects hstart hexec hdone hpassed
  apply hrespects
  -- the monitor is aborted once
  obtain ⟨rfl, -, -⟩ := (List.append_cons_inj_of_notMem
    (by simp [Batching.batching, Batching.dropping, Batching.sample])
    (by simp [Batching.reporting])).mp hacts
  obtain ⟨e₂, hfirst, hsampling⟩ := Machine.exists_of_exec_append hbefore
  refine ⟨_, _, e₂, e₁, rfl, hfirst, hsampling, ?_, ?_⟩
  · apply Machine.along_of_forall
    intro s act hact
    obtain ⟨a, rfl⟩ := Batching.exists_of_mem_sample hact
    exact Batching.keepsMetrics_monitor s a
  · have hidle : (Batching.run (Batching.batched (Duration.fromSecs 2) 1)
        (Batching.batching ++ Batching.dropping (Duration.fromSecs 2) ++ Batching.sample)).map
          (·.monitor.isSampling) = some false := by decide +kernel
    obtain ⟨e', hrun, hmonitor⟩ := Option.map_eq_some_iff.mp hidle
    obtain ⟨e₀', hstart', hexec'⟩ := Batching.exists_of_run hrun
    obtain rfl := Except.ok.inj (hstart.symm.trans hstart')
    obtain rfl := Option.some.inj (hbefore.symm.trans hexec')
    exact hmonitor

/-- An event that is dropped at the deadline, after the last sample, is over a limit of a report
that says passed. -/
theorem passed_violates :
    validateWithOptions (Batching.batched (Duration.fromMillis 1500) 0) {} = .ok () ∧
      ∃ e₀ acts e execution,
        start (Batching.batched (Duration.fromMillis 1500) 0) 0 (fun _ => id) {} false = .ok e₀ ∧
        (machine Refused.telemetry Reference.platform
          (Batching.batched (Duration.fromMillis 1500) 0)).exec e₀ acts = some e ∧
        e.main = .returned execution ∧ execution.report.status = .passed ∧
        evaluate (Batching.batched (Duration.fromMillis 1500) 0).abort
          execution.report.metrics ≠ none := by
  obtain ⟨e₀, e, execution, hstart, hexec, hdone, hpassed, -, hviolates⟩ :=
    Batching.exists_of_verdict (show (Batching.run
      (Batching.batched (Duration.fromMillis 1500) 0)
      (Batching.batching ++ Batching.dropping (Duration.fromMillis 1500) ++
        .abort :: Batching.reporting)).bind (Batching.verdict _) = some (.passed, 1, true) by
      decide +kernel)
  refine ⟨by decide, e₀, _, e, execution, hstart, hexec, hdone, hpassed, ?_⟩
  exact Option.isSome_iff_ne_none.mp hviolates

end Execution

end TakBench
