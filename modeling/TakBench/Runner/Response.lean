import TakBench.Runner.Ending
import TakBench.Runner.Violations

/-!
# The response of the monitor

The monitor looks at the metrics at each second. So messages that are dropped over their limit are
noticed within a second, and the scenario is stopped, unless it is over before. Time passes only
while the monitor has nothing to do; a snapshot that it takes while the messages are dropped may
miss them, but the next one does not.

## Main definitions

* `Execution.Attentive`: time passes only while the monitor waits for its tick
* `Execution.Punctual`, `Execution.Alert`: where the monitor stands, at any time and after a
  violation

## Main results

* `Execution.Alert.step`: a step keeps the monitor alert
* `Execution.drops_noticed`: dropped messages stop the scenario within a second
-/

namespace TakBench

variable {T : Telemetry} {P : Platform} {config : AppConfig}

/-- A signal that is sent to a run stays. -/
theorem Run.signal_step {r r' : Run} {act : RunAct} (hstop : r.stop = true)
    (h : r.step P config act = some r') : r'.stop = true := by
  cases act with
  | task i a =>
    simp only [step] at h
    split at h
    · cases h
    · obtain ⟨⟨state, effects⟩, -, rfl⟩ := Option.map_eq_some_iff.mp h
      exact hstop
  | _ =>
    simp only [step] at h
    grind [Option.map_eq_some_iff]

namespace Execution

variable {e e' e₀ : Execution} {act : ExecutionAct} {acts acts' : List ExecutionAct}
  {since : Instant} {count : Counter → ℕ}

/-- Time passes only while the monitor has nothing to do. -/
def Attentive (T : Telemetry) (config : AppConfig) (e : Execution) : ExecutionAct → Prop
  | .elapse d => ∀ d' < d, ∀ a, a ≠ .dropped → (e.later d').stepMonitor T config a = none
  | _ => True

/-- The stop signal is sent to the scenario. -/
def IsSignalled (e : Execution) : Prop := ∀ run, e.scenario = .running run → run.stop = true

/-- More messages are dropped than the limit allows, with enough samples. -/
def DropsTooMany (config : AppConfig) (count : Counter → ℕ) : Prop :=
  ∃ n, ThresholdViolation.Exceeds config.abort ⟨count, none, none⟩ (.droppedMessages n)

/-! ## The monitor while the scenario runs -/

/-- Where the monitor stands: its next tick is at most a second ahead, and it ends only after it has
stopped the scenario. -/
def Punctual (e : Execution) : Prop :=
  match e.monitor with
  | .spawned | .recording _ => True
  | .ticking created fired | .loading created fired _ =>
    created + fired * Duration.fromSecs 1 ≤ e.now + Duration.fromSecs 1
  | .signalling => e.reason.isSome = true
  | .done => e.reason.isSome = true ∧ e.IsSignalled

/-- Where the monitor stands after a violation at a time: the snapshot that it takes shows the
violation, or the next one will, a second later at most. -/
def Alert (since : Instant) (count : Counter → ℕ) (e : Execution) : Prop :=
  match e.monitor with
  | .spawned => e.now ≤ since
  | .ticking created fired => e.now ≤ since + Duration.fromSecs 1 ∧
      created + fired * Duration.fromSecs 1 ≤ since + Duration.fromSecs 1
  | .loading created fired loading => e.now ≤ since + Duration.fromSecs 1 ∧
      (loading.Over count ∨ e.now ≤ since ∧
        created + fired * Duration.fromSecs 1 ≤ since + Duration.fromSecs 1)
  | .recording _ => e.now ≤ since + Duration.fromSecs 1
  | .signalling => e.now ≤ since + Duration.fromSecs 1 ∧ e.reason.isSome = true
  | .done => e.reason.isSome = true ∧ e.IsSignalled

/-- A main task that runs has run. -/
theorem running_of_step (hmain : e'.main = .running) (h : e.step T P config act = some e') :
    e.main = .running := by
  cases steps_of_step h with
  | monitor a e' => exact (monitor_cases h).1.symm.trans hmain
  | abort | read | count | load | report => cases hmain
  | elapse | stop | forward | scenario => exact hmain

theorem isSignalled_signal {scenario : Scenario} (hs : e.scenario = scenario.signal) :
    e.IsSignalled := by
  intro run hrun
  cases scenario with
  | failed error world => cases hs.symm.trans hrun
  | running run' =>
    obtain rfl := Scenario.running.inj (hs.symm.trans hrun)
    rfl

/-- A signal that is sent stays. -/
theorem isSignalled_step (he : e.IsSignalled) (h : e.step T P config act = some e') :
    e'.IsSignalled := by
  intro run' hs'
  cases scenario_cases h with
  | steps run run₁ a hs hstep hs₁ hmain =>
    obtain rfl := Scenario.running.inj (hs'.symm.trans hs₁)
    exact Run.signal_step (he run hs) hstep
  | elapses error world d hs hs₁ hmain => cases hs'.symm.trans hs₁
  | reports outcome threshold loading metrics hmain hmetrics hs₁ hmain' =>
    rw [hs₁] at hs'
    cases hs : e.scenario with
    | failed error world =>
      rw [hs] at hs'
      cases hs'
    | running run =>
      rw [hs] at hs'
      obtain rfl := Scenario.running.inj hs'
      exact he run hs
  | same hs hmain => exact he run' (hs.symm.trans hs')

/-- Time passes only by the clock. -/
theorem now_step (htime : ∀ d, act ≠ .elapse d) (h : e.step T P config act = some e') :
    e'.now = e.now := by
  cases steps_of_step h with
  | elapse d => exact absurd rfl (htime d)
  | forward =>
    rw [now, now]
    cases e.scenario <;> rfl
  | scenario run run' a hrunning hstep =>
    by_cases helapse : ∃ d, a = .elapse d
    · -- the clock is not the scenario's
      obtain ⟨d, rfl⟩ := helapse
      simp [step] at h
    · rw [now, now, hrunning]
      exact Run.now_step (not_exists.mp helapse) hstep
  | monitor a e' =>
    rcases (monitor_cases h).2.1 with hsame | hsignal
    · rw [now, now, hsame]
    · rw [now, now, hsignal]
      cases e.scenario <;> rfl
  | report =>
    rw [now, now]
    cases hs : e.scenario <;> simp [Scenario.emit, Scenario.world]
  | stop | abort | read | count | load => rfl

/-- **The monitor stays punctual** while the main task runs. -/
theorem Punctual.step (he : e.Punctual) (hmain : e.main = .running)
    (h : e.step T P config act = some e') : e'.Punctual := by
  unfold Punctual at he ⊢
  by_cases hmonitor : ∃ a, act = .monitor a
  · obtain ⟨a, rfl⟩ := hmonitor
    cases monitorSteps_of_step h with
    | start hphase =>
      show e.now + 0 * Duration.fromSecs 1 ≤ _
      rw [Nat.zero_mul]
      exact Nat.le_add_right _ _
    | tick created fired hphase hdue =>
      show created + (fired + 1) * Duration.fromSecs 1 ≤ e.now + Duration.fromSecs 1
      rw [Nat.succ_mul, ← Nat.add_assoc]
      exact Nat.add_le_add_right hdue _
    | load created fired loading loading' hphase | within created fired loading snapshot hphase =>
      rw [hphase] at he
      exact he
    | violated => trivial
    | recorded reason hphase => rfl
    | signalled hphase =>
      rw [hphase] at he
      exact ⟨he, isSignalled_signal rfl⟩
    | dropped haborted =>
      rw [isAborted, hmain] at haborted
      cases haborted
  · obtain ⟨hphase, hreason, -⟩ := keeps_of_not_monitor h (not_exists.mp hmonitor)
    have hle : e.now ≤ e'.now := by
      by_cases htime : ∃ d, act = .elapse d
      · obtain ⟨d, rfl⟩ := htime
        obtain rfl := Option.some.inj h
        exact (Nat.le_add_right _ _).trans (now_elapse e.scenario d).ge
      · exact (now_step (not_exists.mp htime) h).ge
    rw [hphase, hreason]
    split at he
    · trivial
    · trivial
    · exact he.trans (Nat.add_le_add_right hle _)
    · exact he.trans (Nat.add_le_add_right hle _)
    · exact he
    · exact ⟨he.1, isSignalled_step he.2 h⟩

/-- After a violation the monitor is alert. -/
theorem Punctual.alert (he : e.Punctual) (count : Counter → ℕ) : e.Alert e.now count := by
  unfold Punctual at he
  unfold Alert
  cases hphase : e.monitor with
  | spawned => exact Nat.le_refl _
  | ticking created fired =>
    rw [hphase] at he
    exact ⟨Nat.le_add_right _ _, he⟩
  | loading created fired loading =>
    rw [hphase] at he
    exact ⟨Nat.le_add_right _ _, .inr ⟨Nat.le_refl _, he⟩⟩
  | recording reason => exact Nat.le_add_right _ _
  | signalling =>
    rw [hphase] at he
    exact ⟨Nat.le_add_right _ _, he⟩
  | done =>
    rw [hphase] at he
    exact he

/-! ## The monitor after a violation -/

/-- Time passes only while the monitor waits for a tick, and up to it. -/
theorem le_of_attentive {d : Duration} (hattentive : e.Attentive T config (.elapse d))
    (hpos : 0 < d) : e.monitor = .done ∨ ∃ created fired, e.monitor = .ticking created fired ∧
      e.now + d ≤ created + fired * Duration.fromSecs 1 := by
  have hnone := hattentive 0 hpos
  cases hphase : e.monitor with
  | spawned =>
    have hstart := hnone .start (by decide)
    simp [stepMonitor, later, hphase] at hstart
  | ticking created fired =>
    refine .inr ⟨created, fired, rfl, ?_⟩
    by_contra hlt
    -- the tick is due before
    have htick := hattentive (d - 1) (Nat.sub_lt hpos Nat.one_pos) .tick (by decide)
    have hdue : created + fired * Duration.fromSecs 1 ≤
        (e.scenario.elapse (d - 1)).world.now := by
      rw [now_elapse]
      have hbefore := Nat.le_sub_one_of_lt (Nat.not_le.mp hlt)
      rwa [Nat.add_sub_assoc hpos] at hbefore
    simp only [stepMonitor, later, hphase] at htick
    rw [if_pos hdue] at htick
    cases htick
  | loading created fired loading =>
    have hload := hnone .load (by decide)
    have hevaluate := hnone .evaluate (by decide)
    simp only [stepMonitor, later, hphase, Option.map_eq_none_iff] at hload hevaluate
    rcases exists_load_or_finish loading (e.scenario.elapse 0).world with ⟨loading', hsome⟩ |
      ⟨snapshot, hsome⟩
    · cases hload.symm.trans hsome
    · cases hevaluate.symm.trans hsome
  | recording reason =>
    have hrecorded := hnone .recorded (by decide)
    simp [stepMonitor, later, hphase] at hrecorded
  | signalling =>
    have hsignalled := hnone .signalled (by decide)
    simp [stepMonitor, later, hphase] at hsignalled
  | done => exact .inl rfl

/-- A step of the monitor after a violation. -/
theorem Alert.step_monitor (he : e.Alert since count) (hcount : Below count e.counters)
    (hdrops : DropsTooMany config count) (hmain : e.main = .running) {a : MonitorAct}
    (h : e.stepMonitor T config a = some e') : e'.Alert since count := by
  unfold Alert at he ⊢
  cases monitorSteps_of_step h with
  | start hphase =>
    rw [hphase] at he
    refine ⟨he.trans (Nat.le_add_right _ _), ?_⟩
    show e.now + 0 * Duration.fromSecs 1 ≤ _
    rw [Nat.zero_mul]
    exact he.trans (Nat.le_add_right _ _)
  | tick created fired hphase hdue =>
    rw [hphase] at he
    exact ⟨he.1, .inl (Loading.over_start count _)⟩
  | load created fired loading loading' hphase hload =>
    rw [hphase] at he
    exact ⟨he.1, he.2.imp (fun hover => hover.load hcount hload) id⟩
  | within created fired loading snapshot hphase hfinish hwithin =>
    rw [hphase] at he
    refine ⟨he.1, ?_⟩
    rcases he.2 with hover | ⟨-, hnext⟩
    · -- a snapshot that shows the violation is not within the limits
      obtain ⟨n, hexceeds⟩ := hdrops
      exact absurd hwithin (evaluate_ne_none_of_dropped hexceeds (hover.finish hfinish))
    · exact hnext
  | violated created fired loading snapshot violation hphase =>
    rw [hphase] at he
    exact he.1
  | recorded reason hphase =>
    rw [hphase] at he
    exact ⟨he, rfl⟩
  | signalled hphase =>
    rw [hphase] at he
    exact ⟨he.2, isSignalled_signal rfl⟩
  | dropped haborted =>
    rw [isAborted, hmain] at haborted
    cases haborted

/-- What does not concern the monitor leaves it alert. -/
theorem Alert.congr (he : e.Alert since count) (hmonitor : e'.monitor = e.monitor)
    (hreason : e'.reason = e.reason) (hnow : e'.now = e.now)
    (hsignalled : e.IsSignalled → e'.IsSignalled) : e'.Alert since count := by
  unfold Alert at he ⊢
  rw [hmonitor, hreason, hnow]
  cases hphase : e.monitor with
  | done =>
    rw [hphase] at he
    exact ⟨he.1, hsignalled he.2⟩
  | _ =>
    rw [hphase] at he
    exact he

/-- **The monitor stays alert** while the main task runs. -/
theorem Alert.step (he : e.Alert since count) (hcount : Below count e.counters)
    (hdrops : DropsTooMany config count) (hattentive : e.Attentive T config act)
    (hmain : e.main = .running) (h : e.step T P config act = some e') : e'.Alert since count := by
  by_cases hmonitor : ∃ a, act = .monitor a
  · obtain ⟨a, rfl⟩ := hmonitor
    exact he.step_monitor hcount hdrops hmain h
  obtain ⟨hphase, hreason, -⟩ := keeps_of_not_monitor h (not_exists.mp hmonitor)
  have hsignalled : e.IsSignalled → e'.IsSignalled := fun hs => isSignalled_step hs h
  by_cases htime : ∃ d, act = .elapse d
  · obtain ⟨d, rfl⟩ := htime
    have hnow : e'.now = e.now + d := by
      obtain rfl := Option.some.inj h
      exact now_elapse e.scenario d
    rcases Nat.eq_zero_or_pos d with rfl | hpos
    · exact he.congr hphase hreason hnow hsignalled
    · -- the monitor waits for its tick, or it has stopped the scenario
      unfold Alert at he ⊢
      rw [hphase, hreason, hnow]
      rcases le_of_attentive hattentive hpos with hdone | ⟨created, fired, hticking, hle⟩
      · rw [hdone] at he ⊢
        exact ⟨he.1, hsignalled he.2⟩
      · rw [hticking] at he ⊢
        exact ⟨hle.trans he.2, he.2⟩
  · exact he.congr hphase hreason (now_step (not_exists.mp htime) h) hsignalled

/-- An alert monitor has stopped the scenario after a second. -/
theorem Alert.stopped (he : e.Alert since count) (htime : since + Duration.fromSecs 1 < e.now) :
    e.reason.isSome = true ∧ e.IsSignalled := by
  have hlate : ¬ e.now ≤ since + Duration.fromSecs 1 := Nat.not_le.mpr htime
  unfold Alert at he
  split at he
  · exact absurd (he.trans (Nat.le_add_right _ _)) hlate
  · exact absurd he.1 hlate
  · exact absurd he.1 hlate
  · exact absurd he hlate
  · exact absurd he.1 hlate
  · exact he

/-- What holds of an execution after a violation. -/
structure Responds (config : AppConfig) (since : Instant) (count : Counter → ℕ) (e : Execution) :
    Prop where
  tallied : e.Tallied config
  concludes : e.Concludes config
  below : Below count e.counters
  alert : e.main = .running → e.Alert since count

theorem Responds.step (he : e.Responds config since count) (hdrops : DropsTooMany config count)
    (hattentive : e.Attentive T config act) (h : e.step T P config act = some e') :
    e'.Responds config since count where
  tallied := he.tallied.step h
  concludes := he.concludes.step h
  below := he.below.trans (below_step he.tallied h)
  alert hmain :=
    have hrunning := running_of_step hmain h
    (he.alert hrunning).step he.below hdrops hattentive hrunning h

theorem outcome_of_concludes (he : e.Concludes config) (hmain : e.main ≠ .running) :
    ∃ outcome, e.scenario.outcome? = some outcome := by
  unfold Concludes at he
  split at he
  · next hrunning => exact absurd hrunning hmain
  · exact ⟨_, he⟩
  · exact ⟨_, he.1⟩
  · exact ⟨_, he.1⟩
  · obtain ⟨outcome, _, _, hsees, -⟩ := he
    exact ⟨outcome, hsees.1⟩

/-- **Dropped messages stop the scenario within a second**: once more messages are dropped than the
limit allows, and more than a second has passed, the monitor has recorded a reason and sent the
stop signal, unless the scenario is over. -/
theorem drops_noticed {started : ℤ} {shuffle : ℕ → List Duration → List Duration}
    {options : SafetyOptions} {stop : Bool}
    (hstart : start config started shuffle options stop = .ok e₀)
    (h : (machine T P config).exec e₀ acts = some e) (hdrops : DropsTooMany config e.counters)
    (hattentive : (machine T P config).Along (Attentive T config) e acts')
    (h' : (machine T P config).exec e acts' = some e')
    (htime : e.now + Duration.fromSecs 1 < e'.now) :
    (∃ outcome, e'.scenario.outcome? = some outcome) ∨
      e'.reason.isSome = true ∧ e'.IsSignalled := by
  have hstarted : e₀.Concludes config ∧ (e₀.main = .running → e₀.Punctual) := by
    obtain ⟨-, scenario, rfl, -⟩ := exists_of_start hstart
    exact ⟨trivial, fun _ => trivial⟩
  have hbefore : e.Tallied config ∧ e.Concludes config ∧ (e.main = .running → e.Punctual) :=
    Machine.exec_invariant (m := machine T P config)
      (I := fun e => e.Tallied config ∧ e.Concludes config ∧ (e.main = .running → e.Punctual))
      (fun _ _ _ hs hstep => ⟨hs.1.step hstep, hs.2.1.step hstep, fun hmain =>
        have hrunning := running_of_step hmain hstep
        (hs.2.2 hrunning).step hrunning hstep⟩) ⟨tallied_start hstart, hstarted⟩ h
  have hresponds : e'.Responds config e.now e.counters :=
    Machine.exec_invariant_along (m := machine T P config)
      (fun _ _ _ hs hC hstep => hs.step hdrops hC hstep) hattentive
      ⟨hbefore.1, hbefore.2.1, .refl _, fun hmain => (hbefore.2.2 hmain).alert _⟩ h'
  by_cases hmain : e'.main = .running
  · exact .inr ((hresponds.alert hmain).stopped htime)
  · exact .inl (outcome_of_concludes hresponds.concludes hmain)

/-! ## A batch that is dropped while the monitor waits -/

namespace Batching

/-- Does the monitor wait for its tick for a time, or is it done? -/
def waits (d : Duration) (e : Execution) : Bool :=
  match e.monitor with
  | .ticking created fired => decide (e.now + d ≤ created + fired * Duration.fromSecs 1)
  | .done => true
  | _ => false

theorem attentive_of_waits {d : Duration} (h : waits d e = true) :
    e.Attentive T config (.elapse d) := by
  intro d' hlt a ha
  unfold waits at h
  split at h
  · next created fired hphase =>
    have hbefore : ¬ created + fired * Duration.fromSecs 1 ≤
        (e.scenario.elapse d').world.now := by
      rw [now_elapse, Nat.not_le]
      exact (Nat.add_lt_add_left hlt _).trans_le (of_decide_eq_true h)
    cases a with
    | tick =>
      simp only [stepMonitor, later, hphase]
      exact if_neg hbefore
    | dropped => exact absurd rfl ha
    | _ => simp only [stepMonitor, later, hphase]
  · next hphase =>
    cases a with
    | dropped => exact absurd rfl ha
    | _ => simp only [stepMonitor, later, hphase]
  · cases h

/-- The batch is dropped at the deadline, half a second before the next tick. -/
def overdue : List ExecutionAct :=
  batching ++ [.elapse (Duration.fromMillis 500),
    .scenario (.task 0 (.session (.sender .deadline)))]

/-- The monitor looks, and stops the scenario. -/
def noticing : List ExecutionAct := sample ++ Refused.violated

/-- More than a second after the drop. -/
def responding : List ExecutionAct :=
  .elapse (Duration.fromMillis 500) :: noticing ++ [.elapse (Duration.fromSecs 1)]

end Batching

/-- A batch that is dropped, and noticed at the next tick. -/
theorem drops_noticed_batched :
    ∃ e₀ e e', start (Batching.batched (Duration.fromMillis 1500) 0) 0 (fun _ => id) {} false =
        .ok e₀ ∧
      (machine Refused.telemetry Reference.platform
        (Batching.batched (Duration.fromMillis 1500) 0)).exec e₀ Batching.overdue = some e ∧
      (machine Refused.telemetry Reference.platform
        (Batching.batched (Duration.fromMillis 1500) 0)).exec e Batching.responding = some e' ∧
      e'.scenario.outcome?.isNone = true ∧ e'.reason.isSome = true ∧ e'.IsSignalled := by
  generalize hconfig : Batching.batched (Duration.fromMillis 1500) 0 = config
  have hoverdue : (Batching.run config Batching.overdue).any (fun e =>
      Batching.waits (Duration.fromMillis 500) e && decide (e.now = Duration.fromMillis 1500) &&
        decide (e.counters .droppedMessages = 1) && decide (e.counters .connectionAttempts = 1)) =
      true := by
    subst hconfig
    decide +kernel
  have hnoticed : (Batching.run config (Batching.overdue ++ .elapse (Duration.fromMillis 500) ::
      Batching.noticing)).any (fun e => Batching.waits (Duration.fromSecs 1) e &&
        decide (e.now = Duration.fromSecs 2) && e.scenario.outcome?.isNone) = true := by
    subst hconfig
    decide +kernel
  obtain ⟨e, hrun, he⟩ := (Option.any_eq_true _ _).mp hoverdue
  obtain ⟨e₁, hrun₁, he₁⟩ := (Option.any_eq_true _ _).mp hnoticed
  simp only [Bool.and_eq_true, decide_eq_true_eq] at he he₁
  obtain ⟨⟨⟨hwaits, hnow⟩, hdropped⟩, hattempts⟩ := he
  obtain ⟨⟨hwaits₁, hnow₁⟩, hopen⟩ := he₁
  obtain ⟨e₀, hstart, hexec⟩ := Batching.exists_of_run hrun
  obtain ⟨_, hstart', hexec₁⟩ := Batching.exists_of_run hrun₁
  obtain rfl := Except.ok.inj (hstart.symm.trans hstart')
  obtain ⟨u, hu, hexec₁⟩ := Machine.exists_of_exec_append hexec₁
  obtain rfl := Option.some.inj (hexec.symm.trans hu)
  have hexec' : (machine Refused.telemetry Reference.platform config).exec e Batching.responding =
      some (e₁.later (Duration.fromSecs 1)) := Machine.exec_append hexec₁ rfl
  have hattentive : (machine Refused.telemetry Reference.platform config).Along
      (Attentive Refused.telemetry config) e Batching.responding := by
    refine (Machine.along_append hexec₁).mpr ⟨⟨Batching.attentive_of_waits hwaits, fun t _ => ?_⟩,
      Batching.attentive_of_waits hwaits₁, fun _ _ => trivial⟩
    refine Machine.along_of_forall fun s act hact => ?_
    rcases List.mem_append.mp hact with hact | hact
    · obtain ⟨a, rfl⟩ := Batching.exists_of_mem_sample hact
      trivial
    · simp only [Refused.violated, List.mem_cons, List.not_mem_nil, or_false] at hact
      rcases hact with rfl | rfl <;> trivial
  have hdrops : DropsTooMany config e.counters := by
    refine ⟨1, ?_, hdropped.symm, 0, ?_, Nat.one_pos⟩
    · subst hconfig
      exact hattempts.ge.trans (le_max_left _ _)
    · subst hconfig
      rfl
  have htime : e.now + Duration.fromSecs 1 < (e₁.later (Duration.fromSecs 1)).now := by
    have hlater : (e₁.later (Duration.fromSecs 1)).now = e₁.now + Duration.fromSecs 1 :=
      now_elapse e₁.scenario _
    rw [hlater, hnow, hnow₁]
    decide
  have hstill : (e₁.later (Duration.fromSecs 1)).scenario.outcome?.isNone = true := by
    rwa [later, outcome?_elapse]
  refine ⟨e₀, e, _, hstart, hexec, hexec', hstill, ?_⟩
  rcases drops_noticed hstart hexec hdrops hattentive hexec' htime with ⟨outcome, hover⟩ | hstopped
  · rw [hover] at hstill
    cases hstill
  · exact hstopped

end Execution

end TakBench
