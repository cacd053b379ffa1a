import Mathlib.Data.List.Perm.Basic
import TakBench.Names
import TakBench.Scenario.Load
import TakBench.Scenario.Readiness

/-!
# The outcome of a run

The main task waits at the barrier, reads who is missing if the barrier times out, joins the tasks
in the order in which they are done and then returns. So the failures of an outcome are those of
the participants that were missing, followed by the failure of each task that failed, once for each
task.

## Main definitions

* `Run.MainCases`: what a step does to the main task
* `Task.failures`: the failure that a task is reported with
* `Run.absent`: the failures of those who were missing when a run has read the ready set
* `Run.Collected`: what the main task has collected from the tasks that it has joined

## Main results

* `Run.main_cases`: a step of the main task leaves a phase of its own
* `Run.Collects.step`: the main task collects the failure of each task once
* `Run.exists_collected`: what a run that returns has collected
* `Run.outcome_exact`: the failures of an outcome
-/

namespace TakBench

variable {P : Platform} {config : AppConfig}

/-- The failure that a task is reported with, if it is done and failed. -/
def Task.failures (task : Task) : List ParticipantFailure :=
  match task.state.result? with
  | some result => Run.taskFailure task.participant.id result
  | none => []

theorem Task.failures_of_result {task : Task} {result : Option (Except Failure Unit)}
    (h : task.state.result? = some result) :
    task.failures = Run.taskFailure task.participant.id result := by
  rw [failures, h]

/-- The failure of a participant names it. -/
theorem classifyParticipantError_participant (participant : String) (failure : Failure) :
    (classifyParticipantError participant failure).participant = participant := by
  unfold classifyParticipantError
  split
  · rfl
  · split
    · rfl
    · split <;> rfl

namespace Run

variable {r r' r₀ : Run} {act : RunAct} {acts : List RunAct}

/-! ## The main task -/

/-- What a step does to the main task; but for the first case the tasks stay as they are. -/
inductive MainCases (config : AppConfig) (r : Run) (act : RunAct) (r' : Run) : Prop where
  | same (hmain : r'.main = r.main)
  | waits (barrier barrier' : BarrierPhase) (hmain : r.main = .waiting barrier)
      (hmain' : r'.main = .waiting barrier')
  /-- all are ready, or the run is stopped -/
  | opens (barrier : BarrierPhase) (hmain : r.main = .waiting barrier)
      (hmain' : r'.main = .joining [] [])
  | timesOut (barrier : BarrierPhase) (hmain : r.main = .waiting barrier)
      (hdue : barrierDeadline config ≤ r'.world.now) (hmain' : r'.main = .timedOut)
  | cancels (hact : act = .missing) (hmain : r.main = .timedOut)
      (hnow : r'.world.now = r.world.now)
      (hready : r'.world.ready = r.world.ready) (hstop : r'.world.stop = true)
      (hmain' : r'.main = .joining (readinessFailures config r.world.ready) [])
  | joins (i : ℕ) (task : Task) (result : Option (Except Failure Unit))
      (failures : List ParticipantFailure) (joined : List ℕ)
      (hmain : r.main = .joining failures joined)
      (hget : r.tasks[i]? = some task) (hresult : task.state.result? = some result)
      (hnew : i ∉ joined) (hworld : r'.world = r.world) (htasks : r'.tasks = r.tasks)
      (hmain' : r'.main = .joining (failures ++ taskFailure task.participant.id result)
        (i :: joined))
  | evaluates (failures : List ParticipantFailure) (joined : List ℕ)
      (hmain : r.main = .joining failures joined) (hall : ∀ i < r.tasks.length, i ∈ joined)
      (hworld : r'.world = r.world) (htasks : r'.tasks = r.tasks)
      (hmain' : r'.main =
        .returned ⟨r.world.ledger.evaluateRouting config.scenario.routing, failures⟩)

/-- **A step of the main task leaves a phase of its own.** -/
theorem main_cases (h : r.step P config act = some r') : MainCases config r act r' := by
  cases act with
  | elapse | stop => exact .same (Option.some.inj h ▸ rfl)
  | forward =>
    simp only [step, Option.ite_none_right_eq_some, Option.some.injEq] at h
    obtain ⟨-, rfl⟩ := h
    exact .same rfl
  | task i a =>
    simp only [step] at h
    split at h
    · cases h
    · obtain ⟨⟨state, effects⟩, -, rfl⟩ := Option.map_eq_some_iff.mp h
      exact .same rfl
  | barrier a =>
    simp only [step] at h
    split at h
    · next barrier hmain =>
      obtain ⟨barrier', hstep, rfl⟩ := Option.map_eq_some_iff.mp h
      cases barrier' with
      | returned result =>
        cases result with
        | timedOut => exact .timesOut barrier hmain (BarrierPhase.step_timedOut hstep).2.2 rfl
        | ready | stopped => exact .opens barrier hmain rfl
      | checking | unarmed | armed => exact .waits barrier _ hmain rfl
    · cases h
  | missing =>
    simp only [step] at h
    split at h
    · next hmain =>
      obtain rfl := Option.some.inj h
      exact .cancels rfl hmain rfl rfl rfl rfl
    · cases h
  | join i =>
    simp only [step] at h
    split at h
    · next failures joined task hmain hget =>
      split at h
      · next result hresult =>
        simp only [Option.ite_none_right_eq_some, Option.some.injEq] at h
        obtain ⟨hnew, rfl⟩ := h
        exact .joins i task result failures joined hmain hget hresult hnew rfl rfl rfl
      · cases h
    · cases h
  | evaluate =>
    simp only [step] at h
    split at h
    · next failures joined hmain =>
      simp only [Option.ite_none_right_eq_some, Option.some.injEq, List.all_eq_true,
        List.mem_range, decide_eq_true_eq] at h
      obtain ⟨hall, rfl⟩ := h
      exact .evaluates failures joined hmain hall rfl rfl rfl
    · cases h

/-! ## What the main task collects -/

/-- The failure of the task at an index. -/
def failuresAt (r : Run) (i : ℕ) : List ParticipantFailure :=
  match r.tasks[i]? with
  | some task => task.failures
  | none => []

theorem failuresAt_eq {i : ℕ} {task : Task} (h : r.tasks[i]? = some task) :
    r.failuresAt i = task.failures := by
  rw [failuresAt, h]

/-- Is the task at an index done? -/
def IsDone (r : Run) (i : ℕ) : Prop :=
  ∃ task result, r.tasks[i]? = some task ∧ task.state.result? = some result

/-- A task that is done stays done, with its failure. -/
theorem isDone_step {i : ℕ} (hdone : r.IsDone i) (h : r.step P config act = some r') :
    r'.IsDone i ∧ r'.failuresAt i = r.failuresAt i := by
  obtain ⟨task, result, hi, hresult⟩ := hdone
  rcases step_cases h with ⟨j, a, other, state, effects, -, hget, hstep, rfl⟩ | ⟨-, hidle⟩
  · by_cases hij : j = i
    · subst hij
      obtain rfl := Option.some.inj (hget.symm.trans hi)
      have hlt : j < r.tasks.length := (List.getElem?_eq_some_iff.mp hget).1
      have hresult' := Participant.result?_step hresult hstep
      refine ⟨⟨_, result, List.getElem?_set_self hlt, hresult'⟩, ?_⟩
      rw [failuresAt_eq hi, failuresAt_eq (List.getElem?_set_self hlt),
        Task.failures_of_result hresult, Task.failures_of_result hresult']
    · have hi' : (r.advance j other state effects).tasks[i]? = some task :=
        (List.getElem?_set_ne hij).trans hi
      exact ⟨⟨task, result, hi', hresult⟩, (failuresAt_eq hi').trans (failuresAt_eq hi).symm⟩
  · have hi' : r'.tasks[i]? = some task := by rw [hidle.tasks, hi]
    exact ⟨⟨task, result, hi', hresult⟩, (failuresAt_eq hi').trans (failuresAt_eq hi).symm⟩

/-- The failures of the participants that are missing from the ready set when a step reads it. -/
def absentAt (config : AppConfig) (r : Run) : RunAct → List ParticipantFailure
  | .missing => readinessFailures config r.world.ready
  | _ => []

/-- The failures of the participants that were missing when a run has read the ready set after its
barrier timed out. -/
def absent (P : Platform) (config : AppConfig) (r₀ : Run) (acts : List RunAct) :
    List ParticipantFailure :=
  (machine P config).trace (absentAt config) r₀ acts

/-- The main task has collected the failures of the missing participants and those of the tasks
that it has joined, in the order in which it joined them. -/
structure Collected (r : Run) (absent failures : List ParticipantFailure) (order : List ℕ) :
    Prop where
  nodup : order.Nodup
  done : ∀ i ∈ order, r.IsDone i
  failures : failures = absent ++ order.flatMap r.failuresAt

theorem Collected.step {absent failures : List ParticipantFailure} {order : List ℕ}
    (hr : r.Collected absent failures order) (h : r.step P config act = some r') :
    r'.Collected absent failures order := by
  obtain ⟨hnodup, hdone, rfl⟩ := hr
  refine ⟨hnodup, fun i hi => (isDone_step (hdone i hi) h).1, ?_⟩
  have hsame : order.flatMap r'.failuresAt = order.flatMap r.failuresAt := by
    rw [List.flatMap_def, List.flatMap_def]
    exact congrArg List.flatten
      (List.map_congr_left fun i hi => (isDone_step (hdone i hi) h).2)
  rw [hsame]

/-- What the main task has collected in each of its phases: nobody is known to be missing before it
has read the ready set. -/
def Collects (r : Run) (absent : List ParticipantFailure) : Prop :=
  match r.main with
  | .waiting _ | .timedOut => absent = []
  | .joining failures joined => r.Collected absent failures joined.reverse
  | .returned outcome => ∃ order, r.Collected absent outcome.participantFailures order ∧
      ∀ i < r.tasks.length, i ∈ order

theorem collected_nil (absent : List ParticipantFailure) : r.Collected absent absent [] where
  nodup := List.nodup_nil
  done _ hi := absurd hi List.not_mem_nil
  failures := (List.append_nil absent).symm

/-- **The main task collects the failure of each task once**, behind those of the participants that
it has found missing. -/
theorem Collects.step {absent : List ParticipantFailure} (hr : r.Collects absent)
    (h : r.step P config act = some r') : r'.Collects (absent ++ absentAt config r act) := by
  unfold Collects at hr ⊢
  -- the ready set is read in one phase only
  have hread : r.main ≠ .timedOut → absentAt config r act = [] := by
    intro hmain
    cases act with
    | missing =>
      simp [Run.step] at h
    | _ => rfl
  cases main_cases h with
  | same hmain =>
    rw [hmain]
    split at hr
    · next hphase => rw [hr, hread (by simp [hphase]), List.append_nil]
    · next hphase =>
      -- reading the ready set leaves the phase
      cases act with
      | missing =>
        simp only [Run.step, hphase, Option.some.injEq] at h
        rw [← h, hphase] at hmain
        cases hmain
      | _ => exact (List.append_nil absent).trans hr
    · next hphase =>
      rw [hread (by simp [hphase]), List.append_nil]
      exact hr.step h
    · next hphase =>
      rw [hread (by simp [hphase]), List.append_nil]
      obtain ⟨order, hcollected, hall⟩ := hr
      refine ⟨order, hcollected.step h, fun i hi => hall i ?_⟩
      have hlength := length_tasks (Machine.exec_step (m := machine P config) h Machine.exec_nil)
      rwa [hlength] at hi
  | waits barrier barrier' hmain hmain' =>
    rw [hmain] at hr
    rw [hmain', hread (by simp [hmain]), List.append_nil]
    exact hr
  | opens barrier hmain hmain' =>
    rw [hmain] at hr
    obtain rfl : absent = [] := hr
    rw [hmain', hread (by simp [hmain])]
    exact collected_nil []
  | timesOut barrier hmain hdue hmain' =>
    rw [hmain] at hr
    rw [hmain', hread (by simp [hmain]), List.append_nil]
    exact hr
  | cancels hact hmain hnow hready hstop hmain' =>
    rw [hmain] at hr
    obtain rfl : absent = [] := hr
    subst hact
    rw [hmain']
    exact collected_nil _
  | joins i task result failures joined hmain hget hresult hnew hworld htasks hmain' =>
    rw [hmain] at hr
    rw [hmain', hread (by simp [hmain]), List.append_nil]
    obtain ⟨hnodup, hdone, hfailures⟩ := hr.step h
    show r'.Collected absent _ (i :: joined).reverse
    rw [List.reverse_cons]
    have hget' : r'.tasks[i]? = some task := by rw [htasks, hget]
    refine ⟨?_, ?_, ?_⟩
    · rw [List.nodup_append]
      refine ⟨hnodup, List.nodup_singleton i, fun j hj k hk hjk => ?_⟩
      obtain rfl := List.mem_singleton.mp hk
      exact hnew (List.mem_reverse.mp (hjk ▸ hj))
    · intro j hj
      rcases List.mem_append.mp hj with hj | hj
      · exact hdone j hj
      · obtain rfl := List.mem_singleton.mp hj
        exact ⟨task, result, hget', hresult⟩
    · rw [List.flatMap_append, List.flatMap_singleton, failuresAt_eq hget',
        Task.failures_of_result hresult, hfailures, List.append_assoc]
  | evaluates failures joined hmain hall hworld htasks hmain' =>
    rw [hmain] at hr
    rw [hmain', hread (by simp [hmain]), List.append_nil]
    exact ⟨joined.reverse, hr.step h, fun i hi => List.mem_reverse.mpr (hall i (htasks ▸ hi))⟩

theorem collects_spawn (delays : List Duration) (stop : Bool) :
    (spawn config delays stop).Collects [] := by
  have hmain : (spawn config delays stop).main = enterMain config := rfl
  unfold Collects
  rw [hmain, enterMain]
  split
  · rfl
  · rfl
  · next heq =>
    split at heq <;> cases heq
    exact collected_nil []
  · next heq => split at heq <;> cases heq

/-! ## The failures of an outcome -/

/-- The failures of the tasks, index by index. -/
theorem flatMap_failuresAt (r : Run) :
    (List.range r.tasks.length).flatMap r.failuresAt = r.tasks.flatMap Task.failures := by
  have hindexed : ∀ tasks : List Task, (List.range tasks.length).flatMap
      (fun i => (tasks[i]?.map Task.failures).getD []) = tasks.flatMap Task.failures := by
    intro tasks
    induction tasks with
    | nil => rfl
    | cons task tasks ih =>
      rw [List.length_cons, List.range_succ_eq_map, List.flatMap_cons, List.flatMap_map,
        List.flatMap_cons, ← ih]
      rfl
  rw [← hindexed]
  congr 1
  funext i
  rw [failuresAt]
  split <;> next hget => rw [hget]; rfl

/-- A participant that is missing is a required one. -/
theorem mem_of_mem_missing {ready : List String} {id : String} (h : id ∈ missing config ready) :
    id ∈ config.synchronization.waitForReady := by
  rw [missing, List.mem_mergeSort, List.mem_filter, List.mem_dedup] at h
  exact h.1

/-- A task is reported unless it has returned well. -/
theorem taskFailure_eq_nil_iff {id : String} {result : Option (Except Failure Unit)} :
    taskFailure id result = [] ↔ result = some (.ok ()) := by
  rcases result with _ | ⟨error⟩ | _ <;> simp [taskFailure]

/-- A failure names the participant of its task, unless the task has panicked. -/
theorem participant_of_mem_failures {task : Task} {failure : ParticipantFailure}
    (h : failure ∈ task.failures) :
    failure.participant = task.participant.id ∨
      failure = ⟨.participantTaskFailed, .connect, "unknown"⟩ ∧
        task.state.result? = some none := by
  rw [Task.failures] at h
  split at h
  · next result hresult =>
    rcases result with _ | ⟨error⟩ | _
    · exact .inr ⟨List.mem_singleton.mp h, hresult⟩
    · obtain rfl := List.mem_singleton.mp h
      exact .inl (classifyParticipantError_participant _ _)
    · cases h
  · cases h

/-- The participants of the tasks are configured. -/
theorem configured_invariant :
    TaskInvariant P config fun _ task => task.participant ∈ participants config where
  spawn _ _ _ hmem := hmem
  later _ _ _ _ _ hmem := hmem
  step _ _ _ _ _ hmem _ := hmem

/-- What a run that returns has collected: all tasks are done, and their failures come behind those
of the missing participants. -/
theorem exists_collected {started : ℤ} {shuffle : ℕ → List Duration → List Duration}
    {options : SafetyOptions} {stop : Bool} {outcome : ScenarioOutcome}
    (hstart : start config started shuffle options stop = .ok r₀)
    (h : (machine P config).exec r₀ acts = some r) (hmain : r.main = .returned outcome) :
    (∀ task ∈ r.tasks, ∃ result, task.state.result? = some result) ∧
      ∃ collected, outcome.participantFailures = absent P config r₀ acts ++ collected ∧
        collected.Perm (r.tasks.flatMap Task.failures) := by
  have hcollects : r.Collects (absent P config r₀ acts) := by
    obtain ⟨-, delays, rfl⟩ := exists_of_mem_start hstart
    exact Machine.exec_invariant_trace (m := machine P config) (C := fun _ _ => True)
      (fun _ _ _ _ hr _ hstep => hr.step hstep) (Machine.along_of_forall fun _ _ _ => trivial)
      (collects_spawn delays stop) h
  rw [Collects, hmain] at hcollects
  obtain ⟨order, ⟨hnodup, hdone, hfailures⟩, hall⟩ := hcollects
  refine ⟨fun task htask => ?_, _, hfailures, ?_⟩
  · obtain ⟨i, hi⟩ := List.mem_iff_getElem?.mp htask
    obtain ⟨other, result, hother, hresult⟩ :=
      hdone i (hall i (List.getElem?_eq_some_iff.mp hi).1)
    obtain rfl := Option.some.inj (hi.symm.trans hother)
    exact ⟨result, hresult⟩
  · -- each task is joined, and once
    have horder : order.Perm (List.range r.tasks.length) := by
      refine (List.perm_ext_iff_of_nodup hnodup List.nodup_range).mpr fun i => ?_
      rw [List.mem_range]
      refine ⟨fun hi => ?_, hall i⟩
      obtain ⟨task, -, hget, -⟩ := hdone i hi
      exact (List.getElem?_eq_some_iff.mp hget).1
    rw [← flatMap_failuresAt]
    exact horder.flatMap_right _

/-- Who is missing is a participant of the configuration. -/
theorem exists_of_mem_absent {failure : ParticipantFailure} (haccepted : Accepted config)
    (hfailure : failure ∈ absent P config r₀ acts) :
    ∃ participant ∈ participants config, failure.participant = participant.id := by
  refine Machine.forall_mem_trace (m := machine P config)
    (Q := fun failure => ∃ participant ∈ participants config,
      failure.participant = participant.id) ?_ failure hfailure
  intro r act failure hmem
  cases act with
  | missing =>
    obtain ⟨id, hid, rfl⟩ := List.mem_map.mp hmem
    obtain ⟨participant, hparticipant, hname⟩ :=
      haccepted.waitForReady.2 id (mem_of_mem_missing hid)
    exact ⟨participant, hparticipant, hname.symm⟩
  | _ => cases hmem

/-- A failure of an outcome names a participant of the configuration, or its task has panicked. -/
theorem named_of_mem_failures {started : ℤ} {shuffle : ℕ → List Duration → List Duration}
    {options : SafetyOptions} {stop : Bool} {collected : List ParticipantFailure}
    {failure : ParticipantFailure} (hstart : start config started shuffle options stop = .ok r₀)
    (h : (machine P config).exec r₀ acts = some r)
    (hperm : collected.Perm (r.tasks.flatMap Task.failures))
    (hfailure : failure ∈ absent P config r₀ acts ++ collected) :
    (∃ participant ∈ participants config, failure.participant = participant.id) ∨
      failure = ⟨.participantTaskFailed, .connect, "unknown"⟩ ∧
        ∃ task ∈ r.tasks, task.state.result? = some none := by
  rcases List.mem_append.mp hfailure with hfailure | hfailure
  · obtain ⟨haccepted, -⟩ := exists_of_mem_start hstart
    exact .inl (exists_of_mem_absent (accepted_of_validateWithOptions haccepted) hfailure)
  · obtain ⟨task, htask, hmem⟩ := List.mem_flatMap.mp (hperm.mem_iff.mp hfailure)
    rcases participant_of_mem_failures hmem with hname | ⟨hpanic, hresult⟩
    · exact .inl ⟨task.participant, configured_invariant.run hstart h task htask, hname⟩
    · exact .inr ⟨hpanic, task, htask, hresult⟩

/-- **The failures of an outcome** are those of the participants that were missing when the ready
set was read after the timeout of the barrier, and then the failures of the tasks, each task once. A
failure names a participant of the configuration, or the task that it is of has panicked; and there
is none exactly if nobody was missing and all tasks have returned well. -/
theorem outcome_exact {started : ℤ} {shuffle : ℕ → List Duration → List Duration}
    {options : SafetyOptions} {stop : Bool} {outcome : ScenarioOutcome}
    (hstart : start config started shuffle options stop = .ok r₀)
    (h : (machine P config).exec r₀ acts = some r) (hmain : r.main = .returned outcome) :
    (∀ task ∈ r.tasks, ∃ result, task.state.result? = some result) ∧
    (∃ collected, outcome.participantFailures = absent P config r₀ acts ++ collected ∧
      collected.Perm (r.tasks.flatMap Task.failures)) ∧
    (outcome.participantFailures = [] ↔ absent P config r₀ acts = [] ∧
      ∀ task ∈ r.tasks, task.state.result? = some (some (.ok ()))) ∧
    ∀ failure ∈ outcome.participantFailures,
      (∃ participant ∈ participants config, failure.participant = participant.id) ∨
        failure = ⟨.participantTaskFailed, .connect, "unknown"⟩ ∧
          ∃ task ∈ r.tasks, task.state.result? = some none := by
  obtain ⟨hreturned, collected, hfailures, hperm⟩ := exists_collected hstart h hmain
  refine ⟨hreturned, ⟨collected, hfailures, hperm⟩, ?_, fun failure hfailure => ?_⟩
  · have hnone : collected = [] ↔ r.tasks.flatMap Task.failures = [] :=
      ⟨fun hnil => List.Perm.nil_eq (hnil ▸ hperm) |>.symm,
        fun hnil => List.Perm.eq_nil (hnil ▸ hperm)⟩
    rw [hfailures, List.append_eq_nil_iff, hnone, List.flatMap_eq_nil_iff]
    refine and_congr_right fun _ => forall₂_congr fun task htask => ?_
    obtain ⟨result, hresult⟩ := hreturned task htask
    rw [Task.failures_of_result hresult, taskFailure_eq_nil_iff, hresult, Option.some.injEq]
  · exact named_of_mem_failures hstart h hperm (hfailures ▸ hfailure)

/-- A run that was cancelled by its barrier: the one who was missing is reported first. -/
theorem outcome_exact_tooLate :
    absent Reference.platform Gated.gated (spawn Gated.gated [0] false) Gated.tooLate =
        [⟨.readinessTimeout, .readiness, "sender"⟩] ∧
      ∃ r outcome, (machine Reference.platform Gated.gated).exec (spawn Gated.gated [0] false)
          Gated.tooLate = some r ∧ r.main = .returned outcome ∧
        ∃ collected, outcome.participantFailures =
          ⟨.readinessTimeout, .readiness, "sender"⟩ :: collected ∧
          collected.Perm (r.tasks.flatMap Task.failures) := by
  have habsent : absent Reference.platform Gated.gated (spawn Gated.gated [0] false)
      Gated.tooLate = [⟨.readinessTimeout, .readiness, "sender"⟩] := by
    decide +kernel
  obtain ⟨r, hexec, hdone⟩ := Gated.exists_of_outcome
    (show Gated.outcome Gated.tooLate = some
      { participantFailures := [⟨.readinessTimeout, .readiness, "sender"⟩] } by decide +kernel)
  obtain ⟨-, ⟨collected, hfailures, hperm⟩, -⟩ := outcome_exact Gated.start_gated hexec hdone
  rw [habsent] at hfailures
  exact ⟨habsent, r, _, hexec, hdone, collected, hfailures, hperm⟩

end Run

end TakBench
