import TakBench.Runner.Settlement

/-!
# Reports of aborted executions

The monitor takes its snapshot counter by counter while the tasks go on counting, and the report is
made from another snapshot, after the tasks are stopped and joined. Nothing is taken back from a
counter, but for the active connections. So each counter of the snapshot that stopped an execution
is a lower bound of the one in the report: an execution that is aborted for the messages that were
dropped has a report that violates the limits as well.

## Main definitions

* `Below`: no counter is below that of an earlier snapshot
* `Violates`: a reason names the violation that was found in a snapshot
* `Execution.taken`: the snapshots that the monitor has taken
* `Execution.Borne`: what the monitor has seen, and the main task has read

## Main results

* `Execution.below_step`: a step takes nothing back
* `Execution.Borne.step`: a reason is borne out by the metrics
* `Execution.aborted_borne_out`: the report of an aborted execution
-/

namespace TakBench

variable {T : Telemetry} {P : Platform} {config : AppConfig}

/-- No counter of the first is above that of the second, but for the active connections. -/
def Below (count count' : Counter → ℕ) : Prop :=
  ∀ counter, counter ≠ .activeConnections → count counter ≤ count' counter

theorem Below.refl (count : Counter → ℕ) : Below count count := fun _ _ => Nat.le_refl _

theorem Below.trans {count count' count'' : Counter → ℕ} (h : Below count count')
    (h' : Below count' count'') : Below count count'' :=
  fun counter hcounter => (h counter hcounter).trans (h' counter hcounter)

/-- A step of a run takes nothing back. -/
theorem Run.below_step {r r' : Run} {act : RunAct} (hlinked : ∀ task ∈ r.tasks, Linked config task)
    (hr : r.Counted) (h : r.step P config act = some r') :
    Below r.world.counters r'.world.counters := by
  have hlinked' := linked_invariant.run_step hlinked h
  have hr' := counted_step hlinked hr h
  intro counter hcounter
  rw [counters_eq_sumOver hlinked hr hcounter, counters_eq_sumOver hlinked' hr' hcounter]
  -- the tasks have done more than before
  rcases step_cases h with ⟨i, a, task, state, out, rfl, hget, -, rfl⟩ | ⟨-, hidle⟩
  · have hlog : r.logs[i]? = some task.log := by
      rw [logs, List.getElem?_map, hget]
      rfl
    have hlogs : (r.advance i task state out).logs = r.logs.set i (task.log ++ out) :=
      List.map_set
    rw [hlogs, sumOver_set hlog]
    exact Nat.le_add_right _ _
  · rw [logs, logs, hidle.tasks]

/-- A reason names the violation that was found in a snapshot, and its counters were there. -/
def Violates (T : Telemetry) (config : AppConfig) (samples : List MetricsSnapshot)
    (count : Counter → ℕ) (reason : String) : Prop :=
  ∃ violation, ∃ snapshot ∈ samples, evaluate config.abort snapshot = some violation ∧
    reason = "threshold:" ++ violation.debug T ∧ Below snapshot.counters count

theorem Violates.mono {samples samples' : List MetricsSnapshot} {count count' : Counter → ℕ}
    {reason : String} (h : Violates T config samples count reason) (hsub : samples ⊆ samples')
    (hle : Below count count') : Violates T config samples' count' reason := by
  obtain ⟨violation, snapshot, hmem, hviolation, hreason, hbelow⟩ := h
  exact ⟨violation, snapshot, hsub hmem, hviolation, hreason, hbelow.trans hle⟩

/-! ## Snapshots that are being taken -/

namespace Loading

variable {w : World} {loading loading' : Loading}

/-- What is loaded so far was there. -/
theorem below_start (w : World) : Below (start T w).snapshot.counters w.counters :=
  fun _ _ => Nat.zero_le _

theorem below_load (hl : Below loading.snapshot.counters w.counters)
    (hload : loading.load w = some loading') : Below loading'.snapshot.counters w.counters := by
  obtain ⟨snapshot, rest⟩ := loading
  cases rest with
  | nil => cases hload
  | cons counter rest =>
    obtain rfl := Option.some.inj hload
    intro other hother
    show Function.update snapshot.counters counter (w.counters counter) other ≤ _
    by_cases heq : other = counter
    · subst heq
      rw [Function.update_self]
    · rw [Function.update_of_ne heq]
      exact hl other hother

/-- What is loaded so far is not below a count. -/
def Over (count : Counter → ℕ) (loading : Loading) : Prop :=
  ∀ counter, counter ≠ .activeConnections → counter ∉ loading.rest →
    count counter ≤ loading.snapshot.counters counter

/-- All counters are still to be loaded. -/
theorem over_start (count : Counter → ℕ) (w : World) : (start T w).Over count := by
  intro counter _ hrest
  refine absurd ?_ hrest
  cases counter <;> simp [start]

theorem Over.load {count : Counter → ℕ} (hl : loading.Over count) (hcount : Below count w.counters)
    (hload : loading.load w = some loading') : loading'.Over count := by
  obtain ⟨snapshot, rest⟩ := loading
  cases rest with
  | nil => cases hload
  | cons counter rest =>
    obtain rfl := Option.some.inj hload
    intro other hother hrest
    show count other ≤ Function.update snapshot.counters counter (w.counters counter) other
    by_cases heq : other = counter
    · subst heq
      rw [Function.update_self]
      exact hcount other hother
    · rw [Function.update_of_ne heq]
      refine hl other hother fun hmem => ?_
      rcases List.mem_cons.mp hmem with heq' | hmem
      · exact heq heq'
      · exact hrest hmem

theorem Over.finish {count : Counter → ℕ} {snapshot : MetricsSnapshot} (hl : loading.Over count)
    (hfinish : loading.finish? = some snapshot) : Below count snapshot.counters := by
  unfold finish? at hfinish
  split at hfinish
  · next hrest =>
    obtain rfl := Option.some.inj hfinish
    intro counter hcounter
    apply hl counter hcounter
    rw [List.isEmpty_iff.mp hrest]
    exact List.not_mem_nil
  · cases hfinish

end Loading

/-- An aborted execution says why. -/
theorem conclude_aborted {outcome : Outcome} {threshold : Option String}
    {metrics : MetricsSnapshot}
    (h : (conclude config outcome threshold metrics).report.status = .aborted) :
    threshold = some (conclude config outcome threshold metrics).report.stopReason := by
  cases threshold with
  | some reason => rfl
  | none =>
    simp only [conclude, RunReport.new, Option.isSome_none, Bool.false_eq_true, if_false] at h
    split at h <;> cases h

/-- **Messages that were dropped stay dropped**, and so does the violation. -/
theorem evaluate_ne_none_of_dropped {abort : AbortConfig} {s s' : MetricsSnapshot} {n : ℕ}
    (h : ThresholdViolation.Exceeds abort s (.droppedMessages n))
    (hbelow : Below s.counters s'.counters) : evaluate abort s' ≠ none := by
  obtain ⟨hsamples, rfl, limit, hlimit, hlt⟩ := h
  have hsamples' : s.samples ≤ s'.samples :=
    max_le_max (hbelow _ (by simp)) (hbelow _ (by simp))
  have hdropped : limit < s'.counters .droppedMessages := hlt.trans_le (hbelow _ (by simp))
  rw [evaluate, if_neg (Nat.not_lt.mpr (hsamples.trans hsamples'))]
  -- if no other limit is violated, this one is
  split
  · simp
  split
  · simp
  split
  · simp
  split
  · simp
  rw [hlimit, if_pos (by simpa using hdropped)]
  simp

namespace Execution

variable {e e' e₀ : Execution} {act : ExecutionAct} {acts : List ExecutionAct}
  {samples samples' : List MetricsSnapshot}

/-- The snapshot that a step evaluates. -/
def sampled (e : Execution) : ExecutionAct → List MetricsSnapshot
  | .monitor .evaluate =>
    match e.monitor with
    | .loading _ _ loading => loading.finish?.toList
    | _ => []
  | _ => []

/-- The snapshots that the monitor has taken and evaluated, in their order. -/
def taken (T : Telemetry) (P : Platform) (config : AppConfig) (e₀ : Execution)
    (acts : List ExecutionAct) : List MetricsSnapshot :=
  (machine T P config).trace sampled e₀ acts

/-- The counters now. -/
def counters (e : Execution) : Counter → ℕ := e.scenario.world.counters

/-- **A step takes nothing back.** -/
theorem below_step (he : e.Tallied config) (h : e.step T P config act = some e') :
    Below e.counters e'.counters := by
  unfold counters
  cases scenario_cases h with
  | steps run run' a hs hstep hs' hmain =>
    rw [Tallied, hs] at he
    rw [hs, hs']
    exact Run.below_step he.1 he.2 hstep
  | elapses error world d hs hs' hmain =>
    rw [hs, hs']
    exact Below.refl _
  | reports outcome threshold loading metrics hmain hmetrics hs' hmain' =>
    rw [hs']
    cases e.scenario <;> exact Below.refl _
  | same hs hmain =>
    rw [hs]
    exact Below.refl _

/-- The monitor takes a snapshot of what is there, and a violation that it has seen is borne out by
the metrics. -/
def Watches (T : Telemetry) (config : AppConfig) (samples : List MetricsSnapshot)
    (e : Execution) : Prop :=
  match e.monitor with
  | .loading _ _ loading => Below loading.snapshot.counters e.counters
  | .recording reason => Violates T config samples e.counters reason
  | _ => True

/-- A reason that the main task has read is borne out by the metrics, and by those it reports. -/
def Reads (T : Telemetry) (config : AppConfig) (samples : List MetricsSnapshot)
    (e : Execution) : Prop :=
  match e.main with
  | .counting _ threshold => ∀ reason, threshold = some reason →
      Violates T config samples e.counters reason
  | .loading _ threshold loading => ∀ reason, threshold = some reason →
      ∃ violation, ∃ snapshot ∈ samples, evaluate config.abort snapshot = some violation ∧
        reason = "threshold:" ++ violation.debug T ∧ Below snapshot.counters e.counters ∧
        loading.Over snapshot.counters
  | .returned execution => execution.report.status = .aborted →
      Violates T config samples execution.report.metrics.counters execution.report.stopReason
  | _ => True

/-- What the monitor has seen and recorded, and the main task has read. -/
structure Borne (T : Telemetry) (config : AppConfig) (e : Execution)
    (samples : List MetricsSnapshot) : Prop where
  watches : e.Watches T config samples
  recorded : ∀ reason, e.reason = some reason → Violates T config samples e.counters reason
  reads : e.Reads T config samples

theorem Watches.later (he : e.Watches T config samples) (hbelow : Below e.counters e'.counters)
    (hsub : samples ⊆ samples') (hmonitor : e'.monitor = e.monitor) :
    e'.Watches T config samples' := by
  unfold Watches at he ⊢
  rw [hmonitor]
  split at he
  · exact he.trans hbelow
  · exact he.mono hsub hbelow
  · trivial

/-- What the monitor sees was there. -/
theorem watches_step (he : e.Borne T config samples) {a : MonitorAct}
    (h : e.stepMonitor T config a = some e') :
    e'.Watches T config (samples ++ e.sampled (.monitor a)) ∧ ∀ reason, e'.reason = some reason →
      Violates T config (samples ++ e.sampled (.monitor a)) e'.counters reason := by
  obtain ⟨hwatches, hrecorded, -⟩ := he
  have hsub : samples ⊆ samples ++ e.sampled (.monitor a) := List.subset_append_left _ _
  have hkept : ∀ reason, e.reason = some reason →
      Violates T config (samples ++ e.sampled (.monitor a)) e.counters reason :=
    fun reason hreason => (hrecorded reason hreason).mono hsub (.refl _)
  unfold Watches at hwatches ⊢
  cases monitorSteps_of_step h with
  | start hmonitor => exact ⟨trivial, hkept⟩
  | tick created fired hmonitor hdue => exact ⟨Loading.below_start _, hkept⟩
  | load created fired loading loading' hmonitor hload =>
    rw [hmonitor] at hwatches
    exact ⟨Loading.below_load hwatches hload, hkept⟩
  | within => exact ⟨trivial, hkept⟩
  | violated created fired loading snapshot violation hmonitor hfinish hviolation =>
    rw [hmonitor] at hwatches
    have hmem : snapshot ∈ samples ++ e.sampled (.monitor .evaluate) := by
      refine List.mem_append_right _ ?_
      simp only [sampled, hmonitor, hfinish, Option.toList_some, List.mem_singleton]
    refine ⟨⟨violation, snapshot, hmem, hviolation, rfl, ?_⟩, hkept⟩
    unfold Loading.finish? at hfinish
    split at hfinish
    · exact Option.some.inj hfinish ▸ hwatches
    · cases hfinish
  | recorded reason hmonitor =>
    rw [hmonitor] at hwatches
    refine ⟨trivial, fun other hother => ?_⟩
    obtain rfl := Option.some.inj hother
    exact hwatches.mono hsub (.refl _)
  | signalled hmonitor =>
    refine ⟨trivial, fun reason hreason => ?_⟩
    have hsame : (e.scenario.signal).world.counters = e.scenario.world.counters := by
      cases e.scenario <;> rfl
    unfold counters
    rw [hsame]
    exact hkept reason hreason
  | dropped => exact ⟨trivial, hkept⟩

/-- The main task reads what is recorded, and loads what is there. -/
theorem reads_step (he : e.Borne T config samples) (hbelow : Below e.counters e'.counters)
    (hsub : samples ⊆ samples') (h : e.step T P config act = some e') :
    e'.Reads T config samples' := by
  obtain ⟨-, hrecorded, hreads⟩ := he
  unfold Reads at hreads ⊢
  cases main_cases h with
  | same hmain =>
    rw [hmain]
    split at hreads
    · exact fun reason hreason => (hreads reason hreason).mono hsub hbelow
    · intro reason hreason
      obtain ⟨violation, snapshot, hmem, hviolation, htext, hcount, hover⟩ := hreads reason hreason
      exact ⟨violation, snapshot, hsub hmem, hviolation, htext, hcount.trans hbelow, hover⟩
    · exact fun haborted => (hreads haborted).mono hsub (.refl _)
    · trivial
  | abort outcome hact houtcome hmain hmain' =>
    rw [hmain']
    trivial
  | read outcome hmain hmain' =>
    rw [hmain']
    exact fun reason hreason => (hrecorded reason hreason).mono hsub hbelow
  | count outcome threshold hmain hmain' =>
    rw [hmain] at hreads
    rw [hmain']
    intro reason hreason
    obtain ⟨violation, snapshot, hmem, hviolation, htext, hcount⟩ := hreads reason hreason
    exact ⟨violation, snapshot, hsub hmem, hviolation, htext, hcount.trans hbelow,
      Loading.over_start _ _⟩
  | load outcome threshold loading loading' hmain hload hmain' =>
    rw [hmain] at hreads
    rw [hmain']
    intro reason hreason
    obtain ⟨violation, snapshot, hmem, hviolation, htext, hcount, hover⟩ := hreads reason hreason
    exact ⟨violation, snapshot, hsub hmem, hviolation, htext, hcount.trans hbelow,
      hover.load hcount hload⟩
  | report outcome threshold loading metrics hmain hmetrics hmain' =>
    rw [hmain] at hreads
    rw [hmain']
    intro hstatus
    obtain ⟨violation, snapshot, hmem, hviolation, htext, -, hover⟩ :=
      hreads _ (conclude_aborted hstatus)
    exact ⟨violation, snapshot, hsub hmem, hviolation, htext, hover.finish hmetrics⟩

/-- **A reason is borne out by the metrics**, from the snapshot of the monitor to the report. -/
theorem Borne.step (he : e.Borne T config samples) (htallied : e.Tallied config)
    (h : e.step T P config act = some e') : e'.Borne T config (samples ++ e.sampled act) := by
  have hbelow := below_step htallied h
  have hsub : samples ⊆ samples ++ e.sampled act := List.subset_append_left _ _
  have hreads := reads_step he hbelow hsub h
  by_cases hact : ∃ a, act = .monitor a
  · obtain ⟨a, rfl⟩ := hact
    obtain ⟨hwatches, hrecorded⟩ := watches_step he h
    exact ⟨hwatches, hrecorded, hreads⟩
  · obtain ⟨hmonitor, hreason, -⟩ := keeps_of_not_monitor h fun a ha => hact ⟨a, ha⟩
    refine ⟨he.watches.later hbelow hsub hmonitor, fun reason hrecorded => ?_, hreads⟩
    exact (he.recorded reason (hreason ▸ hrecorded)).mono hsub hbelow

theorem borne_start {started : ℤ} {shuffle : ℕ → List Duration → List Duration}
    {options : SafetyOptions} {stop : Bool}
    (hstart : start config started shuffle options stop = .ok e₀) : e₀.Borne T config [] := by
  obtain ⟨-, scenario, rfl, -⟩ := exists_of_start hstart
  exact ⟨trivial, fun _ hreason => (by cases hreason), trivial⟩

/-- **The report of an aborted execution**: it names the violation that the monitor has found in a
snapshot that it took, none of the counters of that snapshot is above the one in the report, but for
the active connections, and if the violation is one of dropped messages, the metrics of the report
violate the limits as well. -/
theorem aborted_borne_out {started : ℤ} {shuffle : ℕ → List Duration → List Duration}
    {options : SafetyOptions} {stop : Bool} {execution : RunExecution}
    (hstart : start config started shuffle options stop = .ok e₀)
    (h : (machine T P config).exec e₀ acts = some e) (hdone : e.main = .returned execution)
    (haborted : execution.report.status = .aborted) :
    ∃ violation, ∃ snapshot ∈ e₀.taken T P config acts,
      evaluate config.abort snapshot = some violation ∧
      execution.report.stopReason = "threshold:" ++ violation.debug T ∧
      Below snapshot.counters execution.report.metrics.counters ∧
      (∀ n, violation = .droppedMessages n →
        evaluate config.abort execution.report.metrics ≠ none) := by
  have hall : e.Tallied config ∧ e.Borne T config ([] ++ e₀.taken T P config acts) :=
    Machine.exec_invariant_trace (m := machine T P config) (C := fun _ _ => True)
      (I := fun e samples => e.Tallied config ∧ e.Borne T config samples)
      (fun _ _ _ _ hs _ hstep => ⟨hs.1.step hstep, hs.2.step hs.1 hstep⟩)
      (Machine.along_of_forall fun _ _ _ => trivial) ⟨tallied_start hstart, borne_start hstart⟩ h
  have hreads := hall.2.reads
  rw [Reads, hdone] at hreads
  obtain ⟨violation, snapshot, hmem, hviolation, htext, hbelow⟩ := hreads haborted
  refine ⟨violation, snapshot, hmem, hviolation, htext, hbelow, ?_⟩
  rintro n rfl
  exact evaluate_ne_none_of_dropped (exceeds_of_evaluate hviolation) hbelow

/-- An execution that is aborted for an event that was dropped. -/
theorem aborted_borne_out_dropped :
    ∃ e₀ acts e execution,
      start (Batching.batched (Duration.fromMillis 1500) 0) 0 (fun _ => id) {} false = .ok e₀ ∧
      (machine Refused.telemetry Reference.platform
        (Batching.batched (Duration.fromMillis 1500) 0)).exec e₀ acts = some e ∧
      e.main = .returned execution ∧ execution.report.metrics.counters .droppedMessages = 1 ∧
      ∃ violation, ∃ snapshot ∈ e₀.taken Refused.telemetry Reference.platform
          (Batching.batched (Duration.fromMillis 1500) 0) acts,
        evaluate (Batching.batched (Duration.fromMillis 1500) 0).abort snapshot =
          some violation ∧
        execution.report.stopReason = "threshold:" ++ violation.debug Refused.telemetry ∧
        Below snapshot.counters execution.report.metrics.counters := by
  obtain ⟨e₀, e, execution, hstart, hexec, hdone, haborted, hdropped, -⟩ :=
    Batching.exists_of_verdict (show (Batching.run
      (Batching.batched (Duration.fromMillis 1500) 0)
      (Batching.batching ++ Batching.dropping (Duration.fromMillis 1500) ++
        .elapse (Duration.fromMillis 500) :: Batching.sample ++ Refused.violated ++
        .abort :: Batching.reporting)).bind (Batching.verdict _) = some (.aborted, 1, true) by
      decide +kernel)
  obtain ⟨violation, snapshot, hmem, hviolation, hreason, hbelow, -⟩ :=
    aborted_borne_out hstart hexec hdone haborted
  exact ⟨e₀, _, e, execution, hstart, hexec, hdone, hdropped, violation, snapshot, hmem,
    hviolation, hreason, hbelow⟩

end Execution

end TakBench
