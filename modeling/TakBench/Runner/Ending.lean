import TakBench.Runner.Sampling
import TakBench.Scenario.Ending

/-!
# An execution comes to its end

The main task of an execution waits for its scenario, and for nothing else. Once the scenario is
stopped, or both of its deadlines have passed, and the server says nothing more, the report is
there after the timeout of a write: a server that hangs cannot hold up an execution.

## Main definitions

* `Execution.Diligent`: time passes only while the scenario and the main task have nothing to do
* `Execution.Ends`: what holds of an execution from the moment on at which it is released

## Main results

* `Execution.exists_work`: an execution that is released has something to do, or its report is
  there, or a write is not due yet
* `Execution.ends_in_time`: the report is there after the timeout of a write
-/

namespace TakBench

variable {T : Telemetry} {P : Platform} {config : AppConfig}

/-- Can the scenario or the main task make the step while nothing comes from outside? -/
def ExecutionAct.isWork : ExecutionAct → Bool
  | .scenario act => act.isWork
  | .abort | .read | .count | .load | .report => true
  | .elapse _ | .stop | .forward | .monitor _ => false

/-- Does the step wait for the server? -/
def ExecutionAct.isAnswer : ExecutionAct → Bool
  | .scenario act => act.isAnswer
  | _ => false

namespace Execution

variable {e e' e₀ : Execution} {act : ExecutionAct} {acts : List ExecutionAct} {bound : Instant}

/-- The clock of an execution. -/
def now (e : Execution) : Instant := e.scenario.world.now

/-- An execution at a later time. -/
def later (e : Execution) (d : Duration) : Execution :=
  { e with scenario := e.scenario.elapse d }

/-- Time passes only while the scenario has nothing to do, and the main task neither. -/
def Diligent (T : Telemetry) (P : Platform) (config : AppConfig) (e : Execution) :
    ExecutionAct → Prop
  | .elapse d => ∀ d' < d, ∀ act, act.isWork = true → (e.later d').step T P config act = none
  | _ => True

/-! ## Who is released goes on -/

/-- The scenario does not wait for anybody who is not alive. -/
def Alive (e : Execution) : Prop := ∀ run, e.scenario = .running run → run.Alive

/-- The writes in progress are due. -/
def WritesDue (config : AppConfig) (e : Execution) : Prop :=
  ∀ run, e.scenario = .running run → ∀ task ∈ run.tasks, ∀ s ∈ task.state.sender?,
    ∀ write ∈ s.write?, write.since + config.timeouts.write ≤ run.world.now

/-- The steps of the scenario that can be made are those of the execution. -/
theorem exists_work_of_run {run : Run} (hs : e.scenario = .running run)
    (h : ∃ act, act.isWork = true ∧ ∃ run', run.step P config act = some run') :
    ∃ act, act.isWork = true ∧ ∃ e', e.step T P config act = some e' := by
  obtain ⟨a, hwork, run', hstep⟩ := h
  refine ⟨.scenario a, hwork, ?_⟩
  cases a with
  | elapse d => cases hwork
  | stop => cases hwork
  | _ =>
    simp only [step, hs, hstep, Option.map_some]
    exact ⟨_, rfl⟩

/-- The snapshot of the report goes on until it is complete. -/
theorem exists_load_or_finish (loading : Loading) (w : World) :
    (∃ loading', loading.load w = some loading') ∨ ∃ metrics, loading.finish? = some metrics := by
  obtain ⟨snapshot, rest⟩ := loading
  cases rest with
  | nil => exact .inr ⟨_, rfl⟩
  | cons counter rest => exact .inl ⟨_, rfl⟩

/-- **An execution that is released has something to do**, unless its report is there. -/
theorem exists_work (T : Telemetry) (P : Platform) (he : e.Alive)
    (hreleased : Released config e.scenario.world) (hwrite : e.WritesDue config)
    (hmain : ∀ execution, e.main ≠ .returned execution) :
    ∃ act, act.isWork = true ∧ ∃ e', e.step T P config act = some e' := by
  cases hphase : e.main with
  | running =>
    cases hs : e.scenario with
    | failed error world =>
      refine ⟨.abort, rfl, ?_⟩
      simp only [step, hphase, hs, Scenario.outcome?, Option.map_some]
      exact ⟨_, rfl⟩
    | running run =>
      by_cases hreturned : ∃ outcome, run.main = .returned outcome
      · obtain ⟨outcome, hreturned⟩ := hreturned
        refine ⟨.abort, rfl, ?_⟩
        simp only [step, hphase, hs, Scenario.outcome?, hreturned, Option.map_some]
        exact ⟨_, rfl⟩
      · have hreleased' : Released config run.world := by rwa [hs] at hreleased
        exact exists_work_of_run hs (Run.exists_work P (he run hs) hreleased' (hwrite run hs)
          (not_exists.mp hreturned))
  | aborted outcome =>
    refine ⟨.read, rfl, ?_⟩
    simp only [step, hphase]
    exact ⟨_, rfl⟩
  | counting outcome threshold =>
    refine ⟨.count, rfl, ?_⟩
    simp only [step, hphase]
    exact ⟨_, rfl⟩
  | loading outcome threshold loading =>
    rcases exists_load_or_finish loading e.scenario.world with ⟨loading', hload⟩ |
      ⟨metrics, hfinish⟩
    · refine ⟨.load, rfl, ?_⟩
      simp only [step, hphase, hload, Option.map_some]
      exact ⟨_, rfl⟩
    · refine ⟨.report, rfl, ?_⟩
      simp only [step, hphase, hfinish, Option.map_some]
      exact ⟨_, rfl⟩
  | returned execution => exact absurd hphase (hmain execution)

/-! ## What a step does to an execution that is released -/

theorem now_elapse (scenario : Scenario) (d : Duration) :
    (scenario.elapse d).world.now = scenario.world.now + d := by
  cases scenario <;> rfl

/-- A step of the execution, as far as its scenario is concerned. -/
inductive Moves (P : Platform) (config : AppConfig) (e e' : Execution) : Prop where
  /-- a step of the run in which no time passes -/
  | steps (run run' : Run) (a : RunAct) (hs : e.scenario = .running run)
      (hanswer : a.isAnswer = false) (htime : ∀ d, a ≠ .elapse d)
      (hstep : run.step P config a = some run') (hs' : e'.scenario = .running run')
  | same (hnow : e'.now = e.now) (hstop : e'.scenario.world.stop = e.scenario.world.stop)
      (hruns : ∀ run', e'.scenario = .running run' → ∃ run, e.scenario = .running run ∧
        run'.tasks = run.tasks ∧ run'.main = run.main ∧ run'.world.now = run.world.now)

theorem Moves.of_signal {scenario : Scenario} (hs : e.scenario = scenario)
    (hs' : e'.scenario = scenario.signal) : Moves P config e e' := by
  cases scenario with
  | failed error world =>
    refine .same (by rw [now, now, hs, hs']; rfl) (by rw [hs, hs']; rfl) fun run' hrun' => ?_
    cases hs'.symm.trans hrun'
  | running run => exact .steps run _ .stop hs rfl (by simp) rfl hs'

theorem Moves.of_same (hs : e'.scenario = e.scenario) : Moves P config e e' :=
  .same (by rw [now, now, hs]) (by rw [hs])
    fun run' hrun' => ⟨run', hs.symm.trans hrun', rfl, rfl, rfl⟩

/-- **No step but the clock passes time**, and the server says nothing. -/
theorem moves_of_step (hact : act.isAnswer = false) (htime : ∀ d, act ≠ .elapse d)
    (h : e.step T P config act = some e') : Moves P config e e' := by
  cases steps_of_step h with
  | elapse d => exact absurd rfl (htime d)
  | forward => exact .of_signal rfl rfl
  | scenario run run' a hrunning hstep =>
    by_cases helapse : ∃ d, a = .elapse d
    · -- the clock is not the scenario's
      obtain ⟨d, rfl⟩ := helapse
      simp [step] at h
    · exact .steps run run' a hrunning hact (not_exists.mp helapse) hstep rfl
  | monitor a e' hmonitor =>
    rcases (monitor_cases h).2.1 with hsame | hsignal
    · exact .of_same hsame
    · exact .of_signal rfl hsignal
  | report outcome threshold loading metrics =>
    refine .same ?_ ?_ fun run' hrun' => ?_
    · cases hs : e.scenario <;> simp [now, hs, Scenario.emit, Scenario.world]
    · cases e.scenario <;> simp [Scenario.emit, Scenario.world]
    · cases hs : e.scenario with
      | failed error world =>
        rw [hs] at hrun'
        cases hrun'
      | running run =>
        rw [hs] at hrun'
        obtain rfl := Scenario.running.inj hrun'
        exact ⟨run, rfl, rfl, rfl, by simp⟩
  | stop | abort | read | count | load => exact .of_same rfl

/-- What holds of an execution from the moment on at which it is released. -/
structure Ends (config : AppConfig) (bound : Instant) (e : Execution) : Prop where
  released : Released config e.scenario.world
  alive : e.Alive
  le_now : bound ≤ e.now
  draining : bound < e.now → ∀ run, e.scenario = .running run →
    ∀ task ∈ run.tasks, task.state.Draining bound
  returned : bound + config.timeouts.write < e.now → ∃ execution, e.main = .returned execution

/-- A report that is there stays there. -/
theorem returned_step {execution : RunExecution} (hmain : e.main = .returned execution)
    (h : e.step T P config act = some e') : e'.main = .returned execution := by
  cases main_cases h with
  | same hsame => rw [hsame, hmain]
  | abort _ _ _ hother | read _ hother | count _ _ hother | load _ _ _ _ hother
  | report _ _ _ _ hother => cases hmain.symm.trans hother

/-- The execution while no time passes. -/
theorem Ends.step_of_moves (he : e.Ends config bound) (hmoves : Moves P config e e')
    (hmain : ∀ execution, e.main = .returned execution → e'.main = .returned execution) :
    e'.Ends config bound := by
  have hnow : e'.now = e.now := by
    cases hmoves with
    | steps run run' a hs hanswer htime hstep hs' =>
      simp only [now, hs, hs', Scenario.world]
      exact Run.now_step htime hstep
    | same hnow => exact hnow
  refine ⟨?_, ?_, hnow ▸ he.le_now, ?_, ?_⟩
  · rcases he.released with hstop | hdue
    · left
      cases hmoves with
      | steps run run' a hs hanswer htime hstep hs' =>
        simp only [hs, hs', Scenario.world] at hstop ⊢
        exact Run.stop_step hstop hstep
      | same _ hsame => rwa [hsame]
    · right
      have hnow' : e'.scenario.world.now = e.scenario.world.now := hnow
      rwa [hnow']
  · intro run₁ hrun₁
    cases hmoves with
    | steps run run' a hs hanswer htime hstep hs' =>
      obtain rfl := Scenario.running.inj (hs'.symm.trans hrun₁)
      exact (he.alive run hs).step hstep
    | same _ _ hruns =>
      obtain ⟨run, hs, htasks, hphase, htime⟩ := hruns run₁ hrun₁
      have hrun := he.alive run hs
      exact ⟨hphase ▸ hrun.main, htasks ▸ hrun.awake, htasks ▸ htime ▸ hrun.since⟩
  · intro hlate run₁ hrun₁
    rw [hnow] at hlate
    cases hmoves with
    | steps run run' a hs hanswer htime hstep hs' =>
      obtain rfl := Scenario.running.inj (hs'.symm.trans hrun₁)
      exact Run.draining_step (he.draining hlate run hs) hanswer hstep
    | same _ _ hruns =>
      obtain ⟨run, hs, htasks, -⟩ := hruns run₁ hrun₁
      rw [htasks]
      exact he.draining hlate run hs
  · intro hlate
    rw [hnow] at hlate
    obtain ⟨execution, hreturned⟩ := he.returned hlate
    exact ⟨execution, hmain execution hreturned⟩

/-- What holds of an execution that waits. -/
theorem Ends.later {d : Duration} (he : e.Ends config bound)
    (hdiligent : e.Diligent T P config (.elapse d)) : (e.later d).Ends config bound := by
  have hrun {d' : Duration} {run' : Run} (h : (e.later d').scenario = .running run') :
      ∃ run, e.scenario = .running run ∧ run' = run.later d' := by
    cases hs : e.scenario with
    | failed error world =>
      rw [Execution.later, hs] at h
      cases h
    | running run =>
      rw [Execution.later, hs] at h
      exact ⟨run, rfl, (Scenario.running.inj h).symm⟩
  have hreleased (d' : Duration) : Released config (e.later d').scenario.world := by
    have hnow : e.scenario.world.now ≤ (e.later d').scenario.world.now := by
      rw [Execution.later, now_elapse]
      exact Nat.le_add_right _ _
    have hstop : (e.later d').scenario.world.stop = e.scenario.world.stop := by
      cases hs : e.scenario <;> simp [Execution.later, hs, Scenario.elapse, Scenario.world]
    rcases he.released with hstopped | ⟨hrun, hbarrier⟩
    · exact .inl (hstop.trans hstopped)
    · exact .inr ⟨hrun.trans hnow, hbarrier.trans hnow⟩
  have halive (d' : Duration) : (e.later d').Alive := by
    intro run' hrun'
    obtain ⟨run, hs, rfl⟩ := hrun hrun'
    have hlive := he.alive run hs
    exact ⟨hlive.main, hlive.awake, fun task htask s hs' write hwrite =>
      (hlive.since task htask s hs' write hwrite).trans (Nat.le_add_right _ _)⟩
  have hnow (d' : Duration) : (e.later d').now = e.now + d' := now_elapse e.scenario d'
  -- when time passes at all, nobody has anything to do at first but to wait for a write
  have hdraining (hlate : bound < e.now + d) : ∀ run, e.scenario = .running run →
      ∀ task ∈ run.tasks, task.state.Draining bound := by
    intro run hs
    by_cases hearlier : bound < e.now
    · exact he.draining hearlier run hs
    · have hbound : e.now = bound := Nat.le_antisymm (Nat.not_lt.mp hearlier) he.le_now
      have hpasses : 0 < d := Nat.pos_of_lt_add_right (hbound.symm ▸ hlate)
      have hreleased' : Released config run.world := by
        have hworld := he.released
        rwa [hs] at hworld
      have hbound' : run.world.now = bound := by
        rw [← hbound, now, hs]
        rfl
      rcases Run.draining_or_exists_work P (he.alive run hs) hreleased' with hdrains | hwork
      · rwa [hbound'] at hdrains
      · obtain ⟨a, ha, e', hstep⟩ := exists_work_of_run (T := T) hs hwork
        have hrefused := hdiligent 0 hpasses a ha
        have hzero : e.later 0 = e := by
          cases e with
          | mk stop scenario monitor reason main => cases scenario <;> rfl
        rw [hzero, hstep] at hrefused
        cases hrefused
  refine ⟨hreleased d, halive d, (hnow d).symm ▸ he.le_now.trans (Nat.le_add_right _ _), ?_, ?_⟩
  · intro hlate run' hrun' task htask
    rw [hnow] at hlate
    obtain ⟨run, hs, rfl⟩ := hrun hrun'
    exact hdraining hlate run hs task htask
  · intro hlate
    rw [hnow] at hlate
    by_contra hmain
    have hmain' : ∀ execution, e.main ≠ .returned execution := not_exists.mp hmain
    have hearlier : e.now ≤ bound + config.timeouts.write := by
      by_contra hpast
      exact hmain (he.returned (Nat.not_le.mp hpast))
    -- at this moment all writes are due
    have hpasses : bound + config.timeouts.write - e.now < d :=
      Nat.sub_lt_left_of_lt_add hearlier hlate
    have hdue : (e.later (bound + config.timeouts.write - e.now)).WritesDue config := by
      intro run' hrun' task htask s hs' write hwrite
      obtain ⟨run, hs, rfl⟩ := hrun hrun'
      have hsince : write.since ≤ bound := by
        obtain ⟨write', hwrite', hsince⟩ :=
          (hdraining ((Nat.le_add_right _ _).trans_lt hlate) run hs task htask).sender s hs'
        obtain rfl := Option.some.inj (hwrite'.symm.trans hwrite)
        exact hsince
      have hclock : (run.later (bound + config.timeouts.write - e.now)).world.now =
          run.world.now + (bound + config.timeouts.write - e.now) := rfl
      have hsame : run.world.now = e.now := by
        rw [now, hs]
        rfl
      rw [hclock, hsame, Nat.add_sub_cancel' hearlier]
      exact Nat.add_le_add_right hsince _
    obtain ⟨a, ha, e', hstep⟩ := exists_work T P (halive _) (hreleased _) hdue hmain'
    rw [hdiligent _ hpasses a ha] at hstep
    cases hstep

/-- **A step keeps what holds of an execution that is released**, when the server says nothing. -/
theorem Ends.step (he : e.Ends config bound) (hdiligent : e.Diligent T P config act)
    (hact : act.isAnswer = false) (h : e.step T P config act = some e') : e'.Ends config bound := by
  by_cases helapse : ∃ d, act = .elapse d
  · obtain ⟨d, rfl⟩ := helapse
    obtain rfl := Option.some.inj h
    exact he.later hdiligent
  · exact he.step_of_moves (moves_of_step hact (not_exists.mp helapse) h)
      fun execution hmain => returned_step hmain h

/-- A step leaves the scenario with those who are alive. -/
theorem alive_step (he : e.Alive) (h : e.step T P config act = some e') : e'.Alive := by
  cases scenario_cases h with
  | steps run run' a hs hstep hs' =>
    intro run₁ hrun₁
    obtain rfl := Scenario.running.inj (hs'.symm.trans hrun₁)
    exact (he run hs).step hstep
  | elapses error world d hs hs' =>
    intro run₁ hrun₁
    cases hs'.symm.trans hrun₁
  | reports outcome threshold loading metrics hmain hmetrics hs' =>
    intro run₁ hrun₁
    cases hs : e.scenario with
    | failed error world =>
      rw [hs', hs] at hrun₁
      cases hrun₁
    | running run =>
      rw [hs', hs] at hrun₁
      obtain rfl := Scenario.running.inj hrun₁
      exact ⟨(he run hs).main, (he run hs).awake, fun task htask s hsender write hwrite =>
        ((he run hs).since task htask s hsender write hwrite).trans_eq (World.apply_now _ _).symm⟩
  | same hs => exact fun run₁ hrun₁ => he run₁ (hs.symm.trans hrun₁)

theorem alive_start {started : ℤ} {shuffle : ℕ → List Duration → List Duration}
    {options : SafetyOptions} {stop : Bool}
    (hstart : start config started shuffle options stop = .ok e₀) : e₀.Alive := by
  obtain ⟨-, scenario, rfl, hscenario⟩ := exists_of_start hstart
  intro run hrun
  rcases hscenario with ⟨error, rfl⟩ | ⟨run', hstart', rfl⟩
  · cases hrun
  · obtain rfl := Scenario.running.inj hrun
    obtain ⟨-, delays, rfl⟩ := Run.exists_of_mem_start hstart'
    exact Run.alive_spawn delays stop

/-- **An execution comes to its end.** From any moment on at which its scenario is stopped, or both
deadlines have passed, the report is there after the timeout of a write, when the server says
nothing more and time passes only while nobody has anything to do. -/
theorem ends_in_time {started : ℤ} {shuffle : ℕ → List Duration → List Duration}
    {options : SafetyOptions} {stop : Bool} {before after : List ExecutionAct}
    (hstart : start config started shuffle options stop = .ok e₀)
    (hbefore : (machine T P config).exec e₀ before = some e)
    (hreleased : Released config e.scenario.world)
    (hafter : (machine T P config).exec e after = some e')
    (hdiligent : (machine T P config).Along (Diligent T P config) e after)
    (hsilent : ∀ act ∈ after, act.isAnswer = false)
    (hlate : e.now + config.timeouts.write < e'.now) :
    ∃ execution, e'.main = .returned execution := by
  have halive : e.Alive :=
    Machine.exec_invariant (m := machine T P config) (I := Alive) (fun _ _ _ => alive_step)
      (alive_start hstart) hbefore
  have hends : e.Ends config e.now :=
    ⟨hreleased, halive, Nat.le_refl _, fun hlt => absurd hlt (Nat.lt_irrefl _),
      fun hlt => absurd hlt (Nat.not_lt.mpr (Nat.le_add_right _ _))⟩
  have hsilent' : (machine T P config).Along (fun _ act => act.isAnswer = false) e after :=
    Machine.along_of_forall fun _ => hsilent
  have hends' : e'.Ends config e.now :=
    Machine.exec_invariant_along (m := machine T P config) (I := Ends config e.now)
      (fun _ _ _ hs hC hstep => hs.step hC.1 hC.2 hstep) (hdiligent.and hsilent') hends hafter
  exact hends'.returned hlate

/-! ## An execution that is stopped -/

/-- The scenario has an outcome, and its tasks have returned. -/
def Settles : Scenario → Prop
  | .failed _ _ => True
  | .running run => (∃ outcome, run.main = .returned outcome) ∧
      ∀ task ∈ run.tasks, ∃ result, task.state.result? = some (some result)

/-- **Nobody has anything to do** when the report is there and the tasks have returned. -/
theorem step_of_settles {execution : RunExecution} (hmain : e.main = .returned execution)
    (he : Settles e.scenario) (hact : act.isWork = true) : e.step T P config act = none := by
  rw [Option.eq_none_iff_forall_ne_some]
  intro e' h
  cases steps_of_step h with
  | scenario run run' a hrunning hstep =>
    rw [hrunning] at he
    obtain ⟨⟨outcome, hreturned⟩, hdone⟩ := he
    cases a with
    | task i b =>
      simp only [Run.step] at hstep
      split at hstep
      · cases hstep
      · next task hget =>
        obtain ⟨result, hresult⟩ := hdone task (List.mem_of_getElem? hget)
        rw [Participant.step_of_returned hresult] at hstep
        cases hstep
    | elapse d | stop | forward => cases hact
    | _ => simp [Run.step, hreturned] at hstep
  | elapse | stop | forward | monitor => cases hact
  | abort _ hphase | read _ hphase | count _ _ hphase | load _ _ _ _ hphase
  | report _ _ _ _ hphase => cases hmain.symm.trans hphase

theorem settles_elapse {scenario : Scenario} (d : Duration) (h : Settles scenario) :
    Settles (scenario.elapse d) := by
  cases scenario <;> exact h

namespace Hanging

/-- An event is written as soon as it is made. -/
def hung : AppConfig where
  authorization := { acknowledged := true }
  run := { duration := Duration.fromSecs 60, gpsInterval := Duration.fromSecs 1 }
  participants := [Batching.peer]
  scenario := { invalid := { enabled := true, kind := some .malformedXml, maxEvents := some 1 } }

/-- The scenario is stopped while the event is written, and the server does not take it. -/
def stopping : List ExecutionAct :=
  [.scenario (.task 0 .start), .scenario (.task 0 .delayOver), .scenario (.task 0 .enterLoop),
    .scenario (.task 0 (.connected 0)), .scenario (.task 0 .sampled),
    .scenario (.task 0 (.session (.barrier .check))), .elapse (Duration.fromSecs 1),
    .scenario (.task 0 (.session (.sender (.tick 0 7)))), .stop, .forward, .scenario .forward]

/-- The write times out, and the report is made. -/
def returning : List ExecutionAct :=
  [.scenario (.task 0 (.session (.sender (.write .timedOut)))), .scenario (.task 0 .sessionOver),
    .scenario (.join 0), .scenario .evaluate] ++ Refused.reporting

/-- Is the only task in a write that goes on for a time? -/
def waits (d : Duration) (e : Execution) : Bool :=
  match e.main, e.scenario with
  | .running, .running ⟨world, _, [⟨_, ⟨.connected (.sending ⟨_, _, _, _, .flushing write _⟩ none),
      _, _⟩, _⟩], .joining _ []⟩ => decide (world.now + d ≤ write.since + hung.timeouts.write)
  | _, _ => false

/-- Is the report there, and has the only task returned? -/
def isSettled (e : Execution) : Bool :=
  match e.main, e.scenario with
  | .returned _, .running ⟨_, _, [⟨_, ⟨.returned _, _, _⟩, _⟩], .returned _⟩ => true
  | _, _ => false

theorem settles_of_isSettled (h : isSettled e = true) :
    (∃ execution, e.main = .returned execution) ∧ Settles e.scenario := by
  unfold isSettled at h
  split at h
  · next execution world stop participant result attempt recoveryStarted log outcome hmain hs =>
    refine ⟨⟨execution, hmain⟩, ?_⟩
    rw [hs]
    refine ⟨⟨outcome, rfl⟩, fun task htask => ?_⟩
    obtain rfl := List.mem_singleton.mp htask
    exact ⟨result, rfl⟩
  · cases h

/-- **Nobody has anything to do** before the write is due. -/
theorem step_of_waits {d d' : Duration} (h : waits d e = true) (hlt : d' < d)
    (hact : act.isWork = true) : (e.later d').step T P hung act = none := by
  unfold waits at h
  split at h
  · next world stop participant interval nextTick batch eventCount write next attempt
      recoveryStarted log failures hmain hs =>
    have hbefore : ¬ write.since + hung.timeouts.write ≤ world.now + d' := by
      rw [Nat.not_le]
      exact (Nat.add_lt_add_left hlt _).trans_le (of_decide_eq_true h)
    cases act with
    | scenario a =>
      simp only [step, later, hs, Scenario.elapse]
      cases a with
      | elapse d => cases hact
      | stop => cases hact
      | forward => cases hact
      | task i a =>
        cases i with
        | succ i => simp [Run.step]
        | zero =>
          cases a with
          | session a =>
            cases a with
            | sender a =>
              cases a with
              | write a =>
                cases a with
                | timedOut =>
                  simp [Run.step, Participant.step, Session.step, Sender.step, Write.step, hbefore]
                | _ => cases hact
              | _ => simp [Run.step, Participant.step, Session.step, Sender.step]
            | _ => simp [Run.step, Participant.step, Session.step]
          | connected | connectFailed => cases hact
          | _ => simp [Run.step, Participant.step]
      | join i => cases i <;> simp [Run.step, Participant.result?]
      | evaluate => simp [Run.step]
      | barrier a => simp [Run.step]
      | missing => simp [Run.step]
    | elapse d => cases hact
    | stop => cases hact
    | forward => cases hact
    | monitor a => cases hact
    | abort => simp [step, later, hmain, hs, Scenario.elapse, Scenario.outcome?]
    | _ => simp [step, later, hmain]
  · cases h

/-- The scenario is stopped a second after the start, and the report is there when the write has
timed out. -/
theorem exists_settled : ∃ e₀ e e', start hung 0 (fun _ => id) {} false = .ok e₀ ∧
    (machine Refused.telemetry Reference.platform hung).exec e₀ stopping = some e ∧
    e.scenario.world.stop = true ∧ waits (Duration.fromSecs 10) e = true ∧
    (machine Refused.telemetry Reference.platform hung).exec
      (e.later (Duration.fromSecs 10)) returning = some e' ∧ isSettled e' = true ∧
    e'.now = e.now + Duration.fromSecs 10 := by
  have hstopping : (Batching.run hung stopping).any (fun e => e.scenario.world.stop &&
      waits (Duration.fromSecs 10) e && decide (e.now = Duration.fromSecs 1)) = true := by
    decide +kernel
  have hreturning : (Batching.run hung (stopping ++
      .elapse (Duration.fromSecs 10) :: returning)).any
        (fun e => isSettled e && decide (e.now = Duration.fromSecs 11)) = true := by
    decide +kernel
  obtain ⟨e, hrun, hstop⟩ := (Option.any_eq_true _ _).mp hstopping
  obtain ⟨e', hrun', hsettled⟩ := (Option.any_eq_true _ _).mp hreturning
  simp only [Bool.and_eq_true, decide_eq_true_eq] at hstop hsettled
  obtain ⟨⟨hstop, hwaits⟩, hnow⟩ := hstop
  obtain ⟨hsettled, hnow'⟩ := hsettled
  obtain ⟨e₀, hstart, hexec⟩ := Batching.exists_of_run hrun
  obtain ⟨_, hstart', hexec'⟩ := Batching.exists_of_run hrun'
  obtain rfl := Except.ok.inj (hstart.symm.trans hstart')
  obtain ⟨u, hu, hexec'⟩ := Machine.exists_of_exec_append hexec'
  obtain rfl := Option.some.inj (hexec.symm.trans hu)
  obtain ⟨v, helapse, hreturning⟩ := Machine.exec_cons.mp hexec'
  obtain rfl : e.later (Duration.fromSecs 10) = v := Option.some.inj helapse
  refine ⟨e₀, e, e', hstart, hexec, hstop, hwaits, hreturning, hsettled, ?_⟩
  rw [hnow, hnow']
  decide

end Hanging

/-- An execution that is stopped by its caller in a write, which the server never takes. -/
theorem ends_in_time_stopped :
    ∃ e₀ e after e', start Hanging.hung 0 (fun _ => id) {} false = .ok e₀ ∧
      (machine Refused.telemetry Reference.platform Hanging.hung).exec e₀ Hanging.stopping =
        some e ∧
      (machine Refused.telemetry Reference.platform Hanging.hung).exec e after = some e' ∧
      Hanging.waits (Duration.fromSecs 10) e = true ∧
      ∃ execution, e'.main = .returned execution := by
  obtain ⟨e₀, e, u, hstart, hstopping, hstop, hwaits, hreturning, hsettled, hnow⟩ :=
    Hanging.exists_settled
  obtain ⟨⟨execution, hmain⟩, hsettles⟩ := Hanging.settles_of_isSettled hsettled
  have helapse : (machine Refused.telemetry Reference.platform Hanging.hung).step e
      (.elapse (Duration.fromSecs 10)) = some (e.later (Duration.fromSecs 10)) := rfl
  have hlast : (machine Refused.telemetry Reference.platform Hanging.hung).step u
      (.elapse 1) = some (u.later 1) := rfl
  have hending := Machine.exec_append hreturning (Machine.exec_step hlast Machine.exec_nil)
  have hafter := Machine.exec_step helapse hending
  have hwrite : Hanging.hung.timeouts.write = Duration.fromSecs 10 := by decide
  refine ⟨e₀, e, _, _, hstart, hstopping, hafter, hwaits, ends_in_time hstart hstopping
    (.inl hstop) hafter ((Machine.along_cons helapse).mpr ⟨?_, ?_⟩) ?_ ?_⟩
  -- the write is not due for ten seconds
  · exact fun d' hlt act hact => Hanging.step_of_waits hwaits hlt hact
  -- then time passes only when the report is there
  · refine (Machine.along_append hreturning).mpr
      ⟨Machine.along_of_forall fun s act hact => ?_, (Machine.along_cons hlast).mpr ⟨?_, trivial⟩⟩
    · cases act with
      | elapse d => simp [Hanging.returning, Refused.reporting] at hact
      | _ => trivial
    · exact fun d' _ act hact =>
        step_of_settles (e := u.later d') hmain (settles_elapse d' hsettles) hact
  · decide
  · have hclock : (u.later 1).now = u.now + 1 := now_elapse u.scenario _
    rw [hclock, hnow, hwrite]
    exact Nat.lt_add_one _

end Execution

end TakBench
