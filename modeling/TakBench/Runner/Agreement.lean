import TakBench.Protocol.Reference
import TakBench.Runner.Execution

/-!
# The exit status and the report

The status of the report and the failure that decides the exit status are computed apart, and the
failure does not look at the reason of the monitor. So an execution that is otherwise clean
succeeds also when it is aborted by a threshold. The monitor may also record its reason after the
main task has looked for it.

## Main definitions

* `Execution.Clean`: nothing but a threshold can fail the execution
* `Execution.Concludes`: what an execution concludes from

## Main results

* `Execution.Concludes.step`: a step keeps what an execution concludes from
* `Execution.agrees_iff`: the exit status, the status of the report and what happened agree
  exactly when no violation is recorded in a clean run
-/

namespace TakBench

variable {T : Telemetry} {P : Platform} {config : AppConfig}

/-! ## Conclusions -/

section Conclude

variable {outcome : Outcome} {threshold : Option String} {metrics : MetricsSnapshot}

theorem Outcome.isClean_iff : outcome.isClean = true ↔ ∃ o, outcome = .ok o ∧
    (∀ assertion ∈ o.assertions, assertion.passed = true) ∧ o.participantFailures = [] := by
  cases outcome with
  | error e => simp [isClean, Except.isOk, Except.toBool]
  | ok o => simp [isClean, Except.isOk, Except.toBool, assertions, participantFailures]

/-- An outcome is clean unless the scenario, an assertion or a participant failed. -/
theorem completed_eq_isClean (outcome : Outcome) :
    (outcome.isOk && !(outcome.assertions.any fun assertion => !assertion.passed) &&
      !(!outcome.participantFailures.isEmpty)) = outcome.isClean := by
  rw [Bool.not_not, List.not_any_eq_all_not, Outcome.isClean]
  simp only [Bool.not_not]

/-- The exit status does not look at the reason. -/
theorem intoResult_conclude :
    (conclude config outcome threshold metrics).intoResult.isOk = outcome.isClean := by
  rw [RunExecution.intoResult, ← completed_eq_isClean]
  cases outcome with
  | error e => rfl
  | ok o =>
    simp only [conclude]
    cases hassertions : (Outcome.assertions (.ok o)).any fun assertion => !assertion.passed <;>
      cases hparticipants : (Outcome.participantFailures (.ok o)).isEmpty <;> rfl

theorem status_conclude : (conclude config outcome threshold metrics).report.status = .passed ↔
    threshold = none ∧ outcome.isClean = true := by
  simp only [conclude, RunReport.new, completed_eq_isClean]
  cases threshold with
  | none => cases outcome.isClean <;> simp
  | some reason => simp

end Conclude

namespace Execution

variable {e e' e₀ : Execution} {act : ExecutionAct} {acts : List ExecutionAct}

/-! ## Agreement -/

/-- The scenario ended well, every assertion passed and no participant failed. -/
def Clean (e : Execution) : Prop :=
  ∃ outcome, e.scenario.outcome? = some (.ok outcome) ∧
    (∀ assertion ∈ outcome.assertions, assertion.passed = true) ∧
    outcome.participantFailures = []

/-- The reason that was read, if any, was recorded. -/
def Sees (e : Execution) (outcome : Outcome) (threshold : Option String) : Prop :=
  e.scenario.outcome? = some outcome ∧ (threshold.isSome → e.reason.isSome)

/-- An execution concludes from the outcome of its scenario. -/
def Concludes (config : AppConfig) (e : Execution) : Prop :=
  match e.main with
  | .running => True
  | .aborted outcome => e.scenario.outcome? = some outcome
  | .counting outcome threshold | .loading outcome threshold _ => e.Sees outcome threshold
  | .returned execution => ∃ outcome threshold metrics, e.Sees outcome threshold ∧
      execution = conclude config outcome threshold metrics

theorem Sees.step {outcome : Outcome} {threshold : Option String} (hs : e.Sees outcome threshold)
    (h : e.step T P config act = some e') : e'.Sees outcome threshold := by
  obtain ⟨houtcome, hreason⟩ := keeps_step h
  exact ⟨houtcome outcome hs.1, fun hthreshold => hreason.mpr (.inl (hs.2 hthreshold))⟩

/-- **A step keeps what an execution concludes from.** -/
theorem Concludes.step (he : e.Concludes config) (h : e.step T P config act = some e') :
    e'.Concludes config := by
  have hkeep := (keeps_step h).1
  unfold Concludes at he ⊢
  cases main_cases h with
  | same hmain =>
    rw [hmain]
    split at he
    · trivial
    · exact hkeep _ he
    · exact he.step h
    · exact he.step h
    · obtain ⟨outcome, threshold, metrics, hsees, hexecution⟩ := he
      exact ⟨outcome, threshold, metrics, hsees.step h, hexecution⟩
  | abort outcome hact houtcome hmain hmain' =>
    rw [hmain']
    exact hkeep outcome houtcome
  | read outcome hmain hmain' =>
    rw [hmain] at he
    rw [hmain']
    -- what was read is what is recorded
    exact ⟨hkeep outcome he, fun hreason => (keeps_step h).2.mpr (.inl hreason)⟩
  | count outcome threshold hmain hmain' =>
    rw [hmain] at he
    rw [hmain']
    exact he.step h
  | load outcome threshold loading loading' hmain hload hmain' =>
    rw [hmain] at he
    rw [hmain']
    exact he.step h
  | report outcome threshold loading metrics hmain hmetrics hmain' =>
    rw [hmain] at he
    rw [hmain']
    exact ⟨outcome, threshold, metrics, he.step h, rfl⟩

/-- **The exit status agrees with the report**, and the report with what happened, exactly when
the monitor records no violation in a run that is otherwise clean. -/
theorem agrees_iff {started : ℤ} {shuffle : ℕ → List Duration → List Duration}
    {options : SafetyOptions} {stop : Bool} {execution : RunExecution}
    (hstart : start config started shuffle options stop = .ok e₀)
    (h : (machine T P config).exec e₀ acts = some e) (hdone : e.main = .returned execution) :
    ((execution.intoResult.isOk = true ↔ execution.report.status = .passed) ∧
      (execution.report.status = .passed ↔ e.Clean ∧ e.reason = none)) ↔
    (e.Clean → .monitor .recorded ∉ acts) := by
  obtain ⟨-, scenario, rfl, -⟩ := exists_of_start hstart
  have hconcludes : e.Concludes config := by
    refine Machine.exec_invariant (m := machine T P config) (fun _ _ _ he hstep => he.step hstep)
      ?_ h
    trivial
  have hrecorded := reason_exec h
  rw [Concludes, hdone] at hconcludes
  obtain ⟨outcome, threshold, metrics, ⟨houtcome, hthreshold⟩, rfl⟩ := hconcludes
  have hclean : e.Clean ↔ outcome.isClean = true := by
    rw [Clean, houtcome, Outcome.isClean_iff]
    simp
  have hreason : e.reason = none ↔ .monitor .recorded ∉ acts := by
    rw [← Option.not_isSome_iff_eq_none, hrecorded]
    simp [new]
  rw [intoResult_conclude, status_conclude, hclean, hreason]
  -- a reason that was read has been recorded
  have hnone : .monitor .recorded ∉ acts → threshold = none := by
    intro hacts
    rw [← Option.not_isSome_iff_eq_none]
    intro hsome
    exact absurd (hthreshold hsome) (by simp [hreason.mpr hacts])
  constructor
  · rintro ⟨hexit, hstatus⟩ hclean
    exact (hstatus.mp (hexit.mp hclean)).2
  · intro hsilent
    exact ⟨⟨fun hclean => ⟨hnone (hsilent hclean), hclean⟩, And.right⟩,
      fun hpassed => ⟨hpassed.2, hsilent hpassed.2⟩, fun hquiet => ⟨hnone hquiet.2, hquiet.1⟩⟩

/-! ## Two executions with a threshold -/

namespace Refused

def peer : ParticipantConfig := { id := "peer" }

/-- At most half of the connection attempts may fail. -/
def limited : AppConfig where
  authorization := { acknowledged := true }
  participants := [peer]
  reconnect := { enabled := true, jitterPercent := 0 }
  abort := { connectionErrorRate := some (.finite (1 / 2)) }

/-- The values of a histogram in their order, and whole numbers with a decimal point. -/
def telemetry : Telemetry where
  valueAtQuantile values q := values.mergeSort[⌈q * values.length⌉.toNat - 1]?
  debugF64
    | .finite q => if q.den = 1 then toString q.num ++ ".0" else toString q
    | .nan => "NaN"
    | .infinite negative => if negative then "-inf" else "inf"

/-- The first dial is refused. -/
def dialing : List ExecutionAct :=
  [.scenario (.task 0 .start), .scenario (.task 0 .delayOver), .scenario (.task 0 .enterLoop),
    .scenario (.task 0 (.connectFailed .tcp [])), .scenario (.task 0 (.retry 1))]

/-- The monitor looks at the metrics. -/
def looking : List ExecutionAct :=
  .monitor .start :: .monitor .tick :: List.replicate 13 (.monitor .load) ++ [.monitor .evaluate]

/-- The monitor stops the scenario. -/
def violated : List ExecutionAct := [.monitor .recorded, .monitor .signalled]

/-- The caller stops the scenario. -/
def stopped : List ExecutionAct := [.stop, .forward]

/-- The backoff is cut, and the scenario is over. -/
def ending : List ExecutionAct :=
  [.scenario .forward, .scenario (.task 0 .delayCut), .scenario (.join 0), .scenario .evaluate]

/-- The report is written. -/
def reporting : List ExecutionAct :=
  .abort :: .read :: .count :: List.replicate 13 .load ++ [.report]

/-- The execution up to some acts. -/
def run (acts : List ExecutionAct) : Option Execution :=
  match start limited 0 (fun _ => id) {} false with
  | .ok e => (machine telemetry Reference.platform limited).exec e acts
  | .error _ => none

/-- What an execution says at its end: whether it succeeds, and its status. -/
def verdict (e : Execution) : Option (Bool × RunStatus) :=
  match e.main with
  | .returned execution => some (execution.intoResult.isOk, execution.report.status)
  | _ => none

theorem exists_of_verdict {acts : List ExecutionAct} {exit : Bool} {status : RunStatus}
    (h : (run acts).bind verdict = some (exit, status)) :
    ∃ e₀ e execution, start limited 0 (fun _ => id) {} false = .ok e₀ ∧
      (machine telemetry Reference.platform limited).exec e₀ acts = some e ∧
      e.main = .returned execution ∧ execution.intoResult.isOk = exit ∧
      execution.report.status = status := by
  obtain ⟨e, hrun, hverdict⟩ := Option.bind_eq_some_iff.mp h
  rw [run] at hrun
  split at hrun
  · next e₀ hstart =>
    rw [verdict] at hverdict
    split at hverdict
    · next execution hmain =>
      obtain ⟨hexit, hstatus⟩ := Prod.mk.inj (Option.some.inj hverdict)
      exact ⟨e₀, e, execution, hstart, hrun, hmain, hexit, hstatus⟩
    · cases hverdict
  · cases hrun

end Refused

/-- An execution that is stopped by its caller agrees with its report. -/
theorem agrees_iff_stopped :
    ∃ e₀ acts e execution, start Refused.limited 0 (fun _ => id) {} false = .ok e₀ ∧
      (machine Refused.telemetry Reference.platform Refused.limited).exec e₀ acts = some e ∧
      e.main = .returned execution ∧
      (execution.intoResult.isOk = true ↔ execution.report.status = .passed) ∧
      (execution.report.status = .passed ↔ e.Clean ∧ e.reason = none) := by
  obtain ⟨e₀, e, execution, hstart, hexec, hdone, -, -⟩ := Refused.exists_of_verdict
    (show (Refused.run (Refused.dialing ++ Refused.stopped ++ Refused.ending ++
      Refused.reporting)).bind Refused.verdict = some (true, .passed) by decide +kernel)
  refine ⟨e₀, _, e, execution, hstart, hexec, hdone, (agrees_iff hstart hexec hdone).mpr ?_⟩
  simp [Refused.dialing, Refused.stopped, Refused.ending, Refused.reporting]

/-- An execution of an accepted configuration that is aborted by a threshold, and succeeds. -/
theorem aborted_succeeds :
    validateWithOptions Refused.limited {} = .ok () ∧
      ∃ e₀ acts e execution, start Refused.limited 0 (fun _ => id) {} false = .ok e₀ ∧
        (machine Refused.telemetry Reference.platform Refused.limited).exec e₀ acts = some e ∧
        e.main = .returned execution ∧ execution.intoResult.isOk = true ∧
        execution.report.status = .aborted := by
  obtain ⟨e₀, e, execution, hstart, hexec, hdone, hexit, hstatus⟩ := Refused.exists_of_verdict
    (show (Refused.run (Refused.dialing ++ Refused.looking ++ Refused.violated ++ Refused.ending ++
      Refused.reporting)).bind Refused.verdict = some (true, .aborted) by decide +kernel)
  exact ⟨by decide, e₀, _, e, execution, hstart, hexec, hdone, hexit, hstatus⟩

end Execution

end TakBench
