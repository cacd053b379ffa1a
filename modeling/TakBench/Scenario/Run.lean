import TakBench.Safety
import TakBench.Scenario.Participant
import TakBench.TimeRange

/-!
# A run of a scenario

`run_fixed_positions_with_lifecycle` starts a task for each participant, waits for the readiness
barrier, cancels the run if the barrier times out, joins the tasks and evaluates the routing
assertions. A run takes the steps of its tasks and of the main task in any order, while time
elapses and the caller may signal stop.

## Main definitions

* `evaluateRouting`
* `Task`, `Run`, `Run.start`, `Run.step`
* `Run.Distinct`: no two tasks have one name

## Main results

* `Run.step_cases`: a step is one of a task, or leaves the tasks alone
* `Run.TaskInvariant.run`: what the steps of a task preserve, every run preserves
-/

namespace TakBench

/-! ## Routing assertions -/

inductive RoutingExpectation where
  | received
  | notReceived
  deriving DecidableEq

structure AssertionResult where
  sender : String
  receiver : String
  expectation : RoutingExpectation
  passed : Bool
  receivedCount : ℕ
  deriving DecidableEq

structure ScenarioOutcome where
  assertions : List AssertionResult := []
  participantFailures : List ParticipantFailure := []
  deriving DecidableEq

namespace CorrelationLedger

variable (state : CorrelationLedger)

/-- The ids of the events of a sender. -/
def correlations (sender : String) : List Uuid :=
  (state.sent.entries.filter fun entry => entry.2.1 = sender).map (·.1)

/-- Was an event seen by a receiver? -/
def isSeen (receiver : String) (id : Uuid) : Bool := (state.seen.lookup (receiver, id)).isSome

/-- Was an event seen in time? -/
def isSeenWithin (receiver : String) (timeout : Duration) (id : Uuid) : Bool :=
  match state.seen.lookup (receiver, id), state.sent.lookup id with
  | some seen, some (_, sent) => seen - sent ≤ timeout
  | _, _ => false

/-- The result for an expected receiver. -/
def expect (assertion : RoutingAssertion) (receiver : String) : AssertionResult :=
  let correlations := state.correlations assertion.sender
  let timeout := assertion.timeout.getD (Duration.fromSecs 30)
  let receivedCount := correlations.countP (state.isSeenWithin receiver timeout)
  { sender := assertion.sender
    receiver
    expectation := .received
    passed := !correlations.isEmpty && receivedCount = correlations.length
    receivedCount }

/-- The result for a forbidden receiver. -/
def forbid (assertion : RoutingAssertion) (receiver : String) : AssertionResult :=
  let correlations := state.correlations assertion.sender
  let receivedCount := correlations.countP (state.isSeen receiver)
  { sender := assertion.sender
    receiver
    expectation := .notReceived
    passed := !correlations.isEmpty && receivedCount = 0
    receivedCount }

/-- `evaluate_routing`. -/
def evaluateRouting (assertions : List RoutingAssertion) : List AssertionResult :=
  assertions.flatMap fun assertion =>
    assertion.receivers.map (state.expect assertion) ++
      assertion.forbiddenReceivers.map (state.forbid assertion)

end CorrelationLedger

/-! ## The state of a run -/

/-- The task of a participant, with the effects it had. -/
structure Task where
  participant : ParticipantConfig
  state : Participant
  log : List Effect

/-- Where the main task stands. -/
inductive MainPhase where
  | waiting (barrier : BarrierPhase)
  /-- the barrier timed out; waiting for the lock of the ready set -/
  | timedOut
  /-- with the tasks that are joined -/
  | joining (failures : List ParticipantFailure) (joined : List ℕ)
  | returned (outcome : ScenarioOutcome)

structure Run where
  world : World
  /-- the stop signal of the caller -/
  stop : Bool
  tasks : List Task
  main : MainPhase

inductive RunAct where
  | elapse (d : Duration)
  | stop
  /-- the stop signal is forwarded to the tasks -/
  | forward
  | task (i : ℕ) (act : ParticipantAct)
  | barrier (act : BarrierAct)
  | missing
  | join (i : ℕ)
  | evaluate

inductive StartError where
  | safety (error : SafetyError)
  | tooManyParticipants
  | scheduler (error : SchedulerError)
  /-- a deadline is out of range -/
  | panicked

namespace Run

variable (P : Platform) (config : AppConfig)

/-- The main task waits only if there are required participants. -/
def enterMain : MainPhase :=
  if config.synchronization.waitForReady.isEmpty then .joining [] [] else .waiting .checking

/-- The run after its tasks are spawned. -/
def spawn (delays : List Duration) (stop : Bool) : Run where
  world := World.initial stop
  stop
  tasks := ((participants config).zip delays).map fun (participant, delay) =>
    { participant, state := Participant.spawn delay, log := [] }
  main := enterMain config

/-- `run_fixed_positions_with_lifecycle` up to its first suspension, at an instant of the monotonic
clock. From then on time is counted from this instant. -/
def start (started : ℤ) (shuffle : ℕ → List Duration → List Duration) (options : SafetyOptions)
    (stop : Bool) : Except StartError Run :=
  match validateWithOptions config options with
  | .error error => .error (.safety error)
  | .ok () =>
    match runDeadline config started with
    | none => .error .panicked
    | some _ =>
      if 2 ^ 32 ≤ (participants config).length then .error .tooManyParticipants
      else
        match startDelays shuffle (participants config).length config.scheduler with
        | .error error => .error (.scheduler error)
        | .ok delays =>
          match readinessDeadline config started with
          | none => .error .panicked
          | some _ => .ok (spawn config delays stop)

/-- A task has made a step. -/
def advance (r : Run) (i : ℕ) (task : Task) (state : Participant) (effects : List Effect) : Run :=
  { r with
    world := r.world.applyAll effects
    tasks := r.tasks.set i { task with state, log := task.log ++ effects } }

/-- The main task after a step of its waiter. -/
def afterWait : BarrierPhase → MainPhase
  | .returned .timedOut => .timedOut
  | .returned _ => .joining [] []
  | barrier => .waiting barrier

/-- The failures of the participants that are missing when the barrier times out. -/
def readinessFailures (ready : List String) : List ParticipantFailure :=
  (missing config ready).map fun participant => ⟨.readinessTimeout, .readiness, participant⟩

/-- The failure of a task that is done; a task that panicked has lost its participant. -/
def taskFailure (participant : String) : Option (Except Failure Unit) → List ParticipantFailure
  | some (.ok ()) => []
  | some (.error failure) => [classifyParticipantError participant failure]
  | none => [⟨.participantTaskFailed, .connect, "unknown"⟩]

/-- A step of a run. -/
def step (r : Run) : RunAct → Option Run
  | .elapse d => some { r with world := { r.world with now := r.world.now + d } }
  | .stop => some { r with stop := true }
  -- `forward_stop` hands the signal of the caller on to the tasks, once
  | .forward =>
    if r.stop && !r.world.stop then some { r with world := { r.world with stop := true } }
    else none
  | .task i act =>
    match r.tasks[i]? with
    | none => none
    | some task =>
      (task.state.step P task.participant config r.world act).map fun (state, effects) =>
        r.advance i task state effects
  | .barrier act =>
    match r.main with
    | .waiting barrier =>
      (barrier.step config r.world act).map fun barrier => { r with main := afterWait barrier }
    | _ => none
  -- the names that are missing are read after the wait, not when it times out
  | .missing =>
    match r.main with
    | .timedOut =>
      some { r with
        world := { r.world with stop := true }
        main := .joining (readinessFailures config r.world.ready) [] }
    | _ => none
  -- `join_next` takes the tasks that are done in any order
  | .join i =>
    match r.main, r.tasks[i]? with
    | .joining failures joined, some task =>
      match task.state.result? with
      | some result =>
        if i ∉ joined then
          some { r with
            main := .joining (failures ++ taskFailure task.participant.id result) (i :: joined) }
        else none
      | none => none
    | _, _ => none
  | .evaluate =>
    match r.main with
    | .joining failures joined =>
      if (List.range r.tasks.length).all (· ∈ joined) then
        some { r with
          main := .returned
            { assertions := r.world.ledger.evaluateRouting config.scenario.routing
              participantFailures := failures } }
      else none
    | _ => none

/-- The runs of a configuration. -/
def machine (P : Platform) (config : AppConfig) : Machine Run RunAct where
  step := step P config

variable {P config} {r r' : Run} {act : RunAct} {acts : List RunAct}

/-! ## What the steps do -/

/-- A step of a task. -/
def TaskSteps (P : Platform) (config : AppConfig) (r : Run) (act : RunAct) (r' : Run) : Prop :=
  ∃ i a task state effects, act = .task i a ∧ r.tasks[i]? = some task ∧
    task.state.step P task.participant config r.world a = some (state, effects) ∧
    r' = r.advance i task state effects

/-- The tasks are left alone. -/
structure Idle (r r' : Run) : Prop where
  tasks : r'.tasks = r.tasks
  now : r.world.now ≤ r'.world.now
  ready : r'.world.ready = r.world.ready
  ledger : r'.world.ledger = r.world.ledger
  counters : r'.world.counters = r.world.counters
  recorded : r'.world.recorded = r.world.recorded
  lifecycle : r'.world.lifecycle = r.world.lifecycle

/-- **A step is one of a task, or leaves the tasks alone.** -/
theorem step_cases (h : r.step P config act = some r') :
    TaskSteps P config r act r' ∨ ((∀ i a, act ≠ .task i a) ∧ Idle r r') := by
  cases act with
  | task i a =>
    simp only [step] at h
    split at h
    · cases h
    · next task htask =>
      obtain ⟨⟨state, effects⟩, hstep, rfl⟩ := Option.map_eq_some_iff.mp h
      exact .inl ⟨i, a, task, state, effects, rfl, htask, hstep, rfl⟩
  | elapse d =>
    obtain rfl := Option.some.inj h
    exact .inr ⟨by simp, rfl, Nat.le_add_right _ _, rfl, rfl, rfl, rfl, rfl⟩
  | stop =>
    obtain rfl := Option.some.inj h
    exact .inr ⟨by simp, rfl, Nat.le_refl _, rfl, rfl, rfl, rfl, rfl⟩
  | forward =>
    simp only [step, Option.ite_none_right_eq_some, Option.some.injEq] at h
    obtain ⟨-, rfl⟩ := h
    exact .inr ⟨by simp, rfl, Nat.le_refl _, rfl, rfl, rfl, rfl, rfl⟩
  | barrier act =>
    simp only [step] at h
    split at h
    · obtain ⟨barrier', -, rfl⟩ := Option.map_eq_some_iff.mp h
      exact .inr ⟨by simp, rfl, Nat.le_refl _, rfl, rfl, rfl, rfl, rfl⟩
    · cases h
  | missing =>
    simp only [step] at h
    split at h
    · obtain rfl := Option.some.inj h
      exact .inr ⟨by simp, rfl, Nat.le_refl _, rfl, rfl, rfl, rfl, rfl⟩
    · cases h
  | join i =>
    simp only [step] at h
    split at h
    · split at h
      · simp only [Option.ite_none_right_eq_some, Option.some.injEq] at h
        obtain ⟨-, rfl⟩ := h
        exact .inr ⟨by simp, rfl, Nat.le_refl _, rfl, rfl, rfl, rfl, rfl⟩
      · cases h
    · cases h
  | evaluate =>
    simp only [step] at h
    split at h
    · simp only [Option.ite_none_right_eq_some, Option.some.injEq] at h
      obtain ⟨-, rfl⟩ := h
      exact .inr ⟨by simp, rfl, Nat.le_refl _, rfl, rfl, rfl, rfl, rfl⟩
    · cases h

/-- A step of the session of a connected participant is a step of the run. -/
theorem step_session {i : ℕ} {participant : ParticipantConfig} {session session' : Session}
    {a : SessionAct} {attempt : ℕ} {recoveryStarted : Instant} {log out : List Effect}
    (hi : r.tasks[i]? = some ⟨participant, ⟨.connected session, attempt, recoveryStarted⟩, log⟩)
    (h : session.step P participant config r.world a = some (session', out)) :
    r.step P config (.task i (.session a)) = some
      (r.advance i ⟨participant, ⟨.connected session, attempt, recoveryStarted⟩, log⟩
        ⟨.connected session', attempt, recoveryStarted⟩ out) := by
  simp only [step, hi, Participant.step, h, Option.map_some, Participant.goto]

/-- Time passes only when it elapses. -/
theorem now_step (hact : ∀ d, act ≠ .elapse d) (h : r.step P config act = some r') :
    r'.world.now = r.world.now := by
  cases act with
  | elapse d => exact absurd rfl (hact d)
  | task i a =>
    simp only [step] at h
    split at h
    · cases h
    · obtain ⟨⟨state, effects⟩, -, rfl⟩ := Option.map_eq_some_iff.mp h
      exact World.applyAll_now _ _
  | _ =>
    simp only [step] at h
    grind [Option.map_eq_some_iff]

/-- The stop signal of the tasks stays up. -/
theorem stop_step (hstop : r.world.stop = true) (h : r.step P config act = some r') :
    r'.world.stop = true := by
  cases act with
  | task i a =>
    simp only [step] at h
    split at h
    · cases h
    · obtain ⟨⟨state, effects⟩, -, rfl⟩ := Option.map_eq_some_iff.mp h
      exact (World.applyAll_stop _ _).trans hstop
  | _ =>
    simp only [step] at h
    grind [Option.map_eq_some_iff]

/-- What a task has done stays done. -/
theorem exists_task_of_step (h : r.step P config act = some r') {id : String} {e : Effect}
    (htask : ∃ task ∈ r.tasks, task.participant.id = id ∧ e ∈ task.log) :
    ∃ task ∈ r'.tasks, task.participant.id = id ∧ e ∈ task.log := by
  rcases step_cases h with ⟨i, a, task, state, effects, -, hget, -, rfl⟩ | ⟨-, hidle⟩
  · obtain ⟨other, hother, hid, he⟩ := htask
    obtain ⟨j, hj⟩ := List.mem_iff_getElem?.mp hother
    by_cases hij : i = j
    · subst hij
      obtain rfl := Option.some.inj (hget.symm.trans hj)
      have hlt : i < r.tasks.length := (List.getElem?_eq_some_iff.mp hget).1
      exact ⟨_, List.mem_set hlt _, hid, List.mem_append_left _ he⟩
    · refine ⟨other, List.mem_of_getElem? (i := j) ?_, hid, he⟩
      rw [advance, List.getElem?_set_ne hij, hj]
  · rwa [hidle.tasks]

theorem exists_task_of_exec (h : (machine P config).exec r acts = some r') {id : String}
    {e : Effect} (htask : ∃ task ∈ r.tasks, task.participant.id = id ∧ e ∈ task.log) :
    ∃ task ∈ r'.tasks, task.participant.id = id ∧ e ∈ task.log :=
  Machine.exec_invariant (m := machine P config)
    (I := fun r => ∃ task ∈ r.tasks, task.participant.id = id ∧ e ∈ task.log)
    (fun _ _ _ htask hstep => exists_task_of_step hstep htask) htask h

/-- The tasks of a run that starts have not run yet. -/
theorem exists_of_mem_start {started : ℤ} {shuffle : ℕ → List Duration → List Duration}
    {options : SafetyOptions} {stop : Bool}
    (h : start config started shuffle options stop = .ok r) :
    validateWithOptions config options = .ok () ∧ ∃ delays, r = spawn config delays stop := by
  rw [start] at h
  split at h
  · cases h
  next haccepted =>
  split at h
  · cases h
  split at h
  · cases h
  split at h
  · cases h
  next delays _ =>
  split at h
  · cases h
  · exact ⟨haccepted, delays, (Except.ok.inj h).symm⟩

/-- An accepted run starts if both of its deadlines are in range and its delays are computed. -/
theorem start_of_accepted {started : ℤ} {shuffle : ℕ → List Duration → List Duration}
    {options : SafetyOptions} {stop : Bool} {delays : List Duration}
    (haccepted : validateWithOptions config options = .ok ())
    (hrun : (runDeadline config started).isSome = true)
    (hready : (readinessDeadline config started).isSome = true)
    (hcount : (participants config).length < 2 ^ 32)
    (hdelays : startDelays shuffle (participants config).length config.scheduler = .ok delays) :
    start config started shuffle options stop = .ok (spawn config delays stop) := by
  obtain ⟨deadline, hrun⟩ := Option.isSome_iff_exists.mp hrun
  obtain ⟨ready, hready⟩ := Option.isSome_iff_exists.mp hready
  simp only [start, haccepted, hrun, if_neg (Nat.not_le.mpr hcount), hdelays, hready]

/-- A run panics when it starts exactly if one of its deadlines is out of range, unless it is
refused before. -/
theorem outOfRange_of_panicked {started : ℤ} {shuffle : ℕ → List Duration → List Duration}
    {options : SafetyOptions} {stop : Bool}
    (h : start config started shuffle options stop = .error .panicked) :
    runDeadline config started = none ∨ readinessDeadline config started = none := by
  rw [start] at h
  split at h
  · cases h
  split at h
  · next hdeadline => exact .inl hdeadline
  split at h
  · cases h
  split at h
  · cases h
  split at h
  · next hdeadline => exact .inr hdeadline
  · cases h

theorem exists_of_mem_spawn {delays : List Duration} {stop : Bool} {task : Task}
    (h : task ∈ (spawn config delays stop).tasks) :
    task.participant ∈ participants config ∧ task.log = [] ∧
      ∃ delay, task.state = Participant.spawn delay := by
  obtain ⟨⟨participant, delay⟩, hmem, rfl⟩ := List.mem_map.mp h
  exact ⟨(List.of_mem_zip hmem).1, rfl, delay, rfl⟩

/-- What holds of a task that has not run, still holds later and when more participants are ready,
and is preserved by the steps of the task. -/
structure TaskInvariant (P : Platform) (config : AppConfig) (I : World → Task → Prop) : Prop where
  spawn (w : World) (participant : ParticipantConfig) (delay : Duration) :
    participant ∈ participants config → I w ⟨participant, Participant.spawn delay, []⟩
  later (w w' : World) (task : Task) :
    w.now ≤ w'.now → w.ready ⊆ w'.ready → I w task → I w' task
  step (w : World) (task : Task) (act : ParticipantAct) (state : Participant)
    (effects : List Effect) : I w task →
    task.state.step P task.participant config w act = some (state, effects) →
    I w { task with state, log := task.log ++ effects }

namespace TaskInvariant

variable {I : World → Task → Prop}

theorem run_step (hI : TaskInvariant P config I) (hr : ∀ task ∈ r.tasks, I r.world task)
    (h : r.step P config act = some r') : ∀ task ∈ r'.tasks, I r'.world task := by
  rcases step_cases h with ⟨i, a, task, state, effects, -, htask, htaskStep, rfl⟩ | ⟨-, hidle⟩
  · have hnow : r.world.now ≤ (r.world.applyAll effects).now := by rw [World.applyAll_now]
    have hready : r.world.ready ⊆ (r.world.applyAll effects).ready :=
      fun _ hmem => World.mem_applyAll_ready.mpr (.inl hmem)
    intro other hother
    rcases List.mem_or_eq_of_mem_set hother with hother | rfl
    · exact hI.later _ _ _ hnow hready (hr other hother)
    · refine hI.later _ _ _ hnow hready (hI.step _ task a state effects ?_ htaskStep)
      exact hr task (List.mem_of_getElem? htask)
  · intro task htask
    rw [hidle.tasks] at htask
    exact hI.later _ _ _ hidle.now (hidle.ready ▸ List.Subset.refl _) (hr task htask)

/-- **What the steps of a task preserve, every run preserves.** -/
theorem run {started : ℤ} {shuffle : ℕ → List Duration → List Duration} {options : SafetyOptions}
    {stop : Bool} {r₀ : Run} (hI : TaskInvariant P config I)
    (hstart : start config started shuffle options stop = .ok r₀)
    (h : (machine P config).exec r₀ acts = some r) : ∀ task ∈ r.tasks, I r.world task := by
  obtain ⟨-, delays, rfl⟩ := exists_of_mem_start hstart
  refine Machine.exec_invariant (fun _ _ _ => hI.run_step) ?_ h
  rintro ⟨participant, state, log⟩ htask
  obtain ⟨hparticipant, hlog, delay, hstate⟩ := exists_of_mem_spawn htask
  simp only at hparticipant hlog hstate
  subst hlog hstate
  exact hI.spawn _ participant delay hparticipant

end TaskInvariant

/-! ## Names -/

/-- The names of the tasks are distinct. -/
def Distinct (r : Run) : Prop := (r.tasks.map (·.participant.id)).Nodup

/-- The names of the tasks stay. -/
theorem ids_step (h : r.step P config act = some r') :
    r'.tasks.map (·.participant.id) = r.tasks.map (·.participant.id) := by
  rcases step_cases h with ⟨i, a, task, state, effects, -, hget, -, rfl⟩ | ⟨-, hidle⟩
  · rw [advance, List.map_set]
    refine List.ext_getElem? fun j => ?_
    by_cases hij : i = j
    · subst hij
      rw [List.getElem?_set_self (by simpa using (List.getElem?_eq_some_iff.mp hget).1)]
      simp [hget]
    · rw [List.getElem?_set_ne hij]
  · rw [hidle.tasks]

/-- Tasks of one name are one task. -/
theorem Distinct.eq_of_id_eq (hr : r.Distinct) {i j : ℕ} {task task' : Task}
    (hi : r.tasks[i]? = some task) (hj : r.tasks[j]? = some task')
    (hid : task.participant.id = task'.participant.id) : i = j := by
  obtain ⟨hlt, rfl⟩ := List.getElem?_eq_some_iff.mp hi
  obtain ⟨hlt', rfl⟩ := List.getElem?_eq_some_iff.mp hj
  have hlt₁ : i < (r.tasks.map (·.participant.id)).length := by simpa using hlt
  have hlt₂ : j < (r.tasks.map (·.participant.id)).length := by simpa using hlt'
  have hname : (r.tasks.map (·.participant.id))[i] = (r.tasks.map (·.participant.id))[j] := by
    simpa using hid
  exact (List.Nodup.getElem_inj_iff hr).mp hname

theorem distinct_spawn {delays : List Duration} {stop : Bool}
    (h : ((participants config).map (·.id)).Nodup) : (spawn config delays stop).Distinct := by
  have hsublist : ∀ (l : List ParticipantConfig) (l' : List Duration),
      ((l.zip l').map (·.1)).Sublist l := by
    intro l
    induction l with
    | nil => simp
    | cons first l ih =>
      intro l'
      cases l' with
      | nil => simp
      | cons delay l' => exact (ih l').cons_cons first
  have hids : (spawn config delays stop).tasks.map (·.participant.id) =
      (((participants config).zip delays).map (·.1)).map (·.id) := by
    rw [spawn, List.map_map, List.map_map]
    rfl
  rw [Distinct, hids]
  exact h.sublist ((hsublist _ _).map _)

end Run

end TakBench
