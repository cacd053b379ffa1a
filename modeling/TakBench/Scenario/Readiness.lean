import TakBench.Protocol.Reference
import TakBench.Scenario.Run

/-!
# Readiness

A sender starts only after all required participants have connected, and nobody else becomes
ready. A wait that times out cancels the run, and the failure is reported exactly when somebody is
still missing at the time the missing participants are computed.

## Main definitions

* `Admitted`: no event of a task before all required participants are ready
* `Marks`: a participant that is marked ready has connected

## Main results

* `Run.readiness`: no event before all required participants have connected
* `Run.timeout_reported_iff`: a timeout is reported exactly when somebody is missing
-/

namespace TakBench

variable {P : Platform} {config : AppConfig}

/-- A CoT event is made, or bytes of one are written. -/
def Effect.isEvent : Effect → Bool
  | .generate _ | .write _ => true
  | _ => false

theorem Effect.Quiet.isEvent {e : Effect} (h : e.Quiet) : e.isEvent = false := by
  cases e with
  | generate id => exact h.elim
  | write bytes => exact h.elim
  | _ => rfl

/-! ## Senders -/

/-- No sender and no event of a task before all required participants are ready. -/
def Admitted (config : AppConfig) (w : World) (task : Task) : Prop :=
  ((∃ s, task.state.sender? = some s) ∨ ∃ e ∈ task.log, e.isEvent = true) →
    isReady config w.ready = true

theorem admitted_step {w : World} {task : Task} {act : ParticipantAct} {state : Participant}
    {out : List Effect} (htask : Admitted config w task)
    (h : task.state.step P task.participant config w act = some (state, out)) :
    Admitted config w { task with state, log := task.log ++ out } := by
  rcases Participant.sender_cases h with ⟨s, s', a, -, hs, -, -, -⟩ |
    ⟨interval, -, -, hready, -, -, -, -, -⟩ | ⟨s, -, hs, -, -, -⟩ | ⟨-, hsame, -, hquiet⟩
  · exact fun _ => htask (.inl ⟨s, hs⟩)
  · exact fun _ => hready
  · exact fun _ => htask (.inl ⟨s, hs⟩)
  · rintro (⟨s, hs⟩ | ⟨e, he, hevent⟩)
    · exact htask (.inl ⟨s, hsame ▸ hs⟩)
    · rcases List.mem_append.mp he with he | he
      · exact htask (.inr ⟨e, he, hevent⟩)
      · rw [(hquiet e he).isEvent] at hevent
        cases hevent

theorem Run.admitted_invariant : TaskInvariant P config (Admitted config) where
  spawn w participant delay _ := by
    rintro (⟨s, hs⟩ | ⟨e, he, -⟩)
    · exact nomatch hs
    · cases he
  later w w' task _ hready htask := fun h => isReady_mono hready (htask h)
  step w task act state effects htask h := admitted_step htask h

/-! ## Marks -/

/-- A participant that is about to be marked ready is required and has connected. -/
structure Marks (config : AppConfig) (task : Task) : Prop where
  connected : (∃ sample, task.state.phase = .sampling sample) ∨ task.state.phase = .marking →
    .add .connectionSuccesses 1 ∈ task.log
  required : task.state.phase = .marking →
    task.participant.id ∈ config.synchronization.waitForReady

namespace Participant

variable {participant : ParticipantConfig} {w : World} {p p' : Participant} {act : ParticipantAct}
  {out : List Effect}

theorem markReady_notMem_recordSessionOver {id : String} (result : Except Failure Unit) :
    .markReady id ∉ recordSessionOver participant config w p result := by
  cases result with
  | ok _ => simp [recordSessionOver]
  | error failure =>
    simp only [recordSessionOver]
    split <;> split <;> simp

/-- Only a new connection is sampled, and only a required participant is marked after it. -/
theorem phase_eq_marking (h : p.step P participant config w act = some (p', out)) :
    ((∃ sample, p'.phase = .sampling sample) ∨ p'.phase = .marking →
      .add .connectionSuccesses 1 ∈ out ∨ ∃ sample, p.phase = .sampling sample) ∧
    (p'.phase = .marking → participant.id ∈ config.synchronization.waitForReady) := by
  have hbetween : p'.isBetween = true →
      ¬ ((∃ sample, p'.phase = .sampling sample) ∨ p'.phase = .marking) := by
    rintro hbetween (⟨sample, hphase⟩ | hphase) <;> simp [isBetween, hphase] at hbetween
  cases steps_of_step h with
  | connect => exact ⟨fun _ => .inl (by simp [countConnected]), fun hmarking => by cases hmarking⟩
  | reconnect elapsed hphase =>
    exact ⟨fun _ => .inr ⟨_, hphase⟩, fun hmarking => by cases hmarking⟩
  | openRequired sample hphase _ hrequired =>
    exact ⟨fun _ => .inr ⟨_, hphase⟩, fun _ => hrequired⟩
  | openSession sample hphase =>
    exact ⟨fun _ => .inr ⟨_, hphase⟩, fun hmarking => by cases hmarking⟩
  | enter =>
    have hnone := hbetween isBetween_enter
    exact ⟨fun hphase => absurd hphase hnone, fun hphase => absurd (.inr hphase) hnone⟩
  | sessionOver result =>
    have hnone := hbetween (isBetween_afterSession result)
    exact ⟨fun hphase => absurd hphase hnone, fun hphase => absurd (.inr hphase) hnone⟩
  | retry factor failure =>
    have hnone := hbetween (isBetween_retry failure factor)
    exact ⟨fun hphase => absurd hphase hnone, fun hphase => absurd (.inr hphase) hnone⟩
  | _ => simp [goto, cutBackoff]

/-- Only a participant that is about to be marked is marked, under its own name. -/
theorem phase_of_markReady (h : p.step P participant config w act = some (p', out)) {id : String}
    (hmark : .markReady id ∈ out) : p.phase = .marking ∧ id = participant.id := by
  cases steps_of_step h with
  | marked hphase => exact ⟨hphase, by simpa using hmark⟩
  | session session session' a out hphase hsession =>
    exact (Session.step_ofSession hsession _ hmark).elim
  | sessionOver result => exact absurd hmark (markReady_notMem_recordSessionOver result)
  | openRequired sample | openSession sample =>
    cases sample <;> simp [recordConnected, recordSample] at hmark
  | connectRetried error | connectFails error => grind [recordConnectFailed]
  | _ => simp [countConnected] at hmark

end Participant

theorem Run.marks_invariant : TaskInvariant P config (fun _ => Marks config) where
  spawn w participant delay _ := by constructor <;> simp [Participant.spawn]
  later w w' task _ _ htask := htask
  step w task act state effects htask h := by
    obtain ⟨hconnected, hrequired⟩ := Participant.phase_eq_marking h
    refine ⟨fun hphase => ?_, hrequired⟩
    -- the success is counted in this step, or before the samples
    rcases hconnected hphase with hnew | hsampling
    · exact List.mem_append_right _ hnew
    · exact List.mem_append_left _ (htask.connected (.inl hsampling))

/-! ## The ready set -/

namespace Run

variable {r r' r₀ : Run} {act : RunAct} {acts : List RunAct}

/-- A ready participant is required and has connected. -/
def ReadyConnected (config : AppConfig) (r : Run) : Prop :=
  ∀ id ∈ r.world.ready, id ∈ config.synchronization.waitForReady ∧
    ∃ task ∈ r.tasks, task.participant.id = id ∧ .add .connectionSuccesses 1 ∈ task.log

theorem readyConnected_step (hmarks : ∀ task ∈ r.tasks, Marks config task)
    (hready : ReadyConnected config r) (h : r.step P config act = some r') :
    ReadyConnected config r' := by
  intro id hid
  by_cases hold : id ∈ r.world.ready
  · exact ⟨(hready id hold).1, exists_task_of_step h (hready id hold).2⟩
  · rcases step_cases h with ⟨i, a, task, state, effects, -, hget, htaskStep, rfl⟩ | ⟨-, hidle⟩
    · -- the participant is marked in this step
      have hmark : .markReady id ∈ effects :=
        (World.mem_applyAll_ready.mp hid).resolve_left hold
      obtain ⟨hphase, rfl⟩ := Participant.phase_of_markReady htaskStep hmark
      have htask := List.mem_of_getElem? hget
      obtain ⟨hconnected, hrequired⟩ := hmarks task htask
      exact ⟨hrequired hphase,
        exists_task_of_step h ⟨task, htask, rfl, hconnected (.inr hphase)⟩⟩
    · exact absurd (hidle.ready ▸ hid) hold

theorem ready_subset_step (h : r.step P config act = some r') :
    r.world.ready ⊆ r'.world.ready := by
  rcases step_cases h with ⟨i, a, task, state, effects, -, -, -, rfl⟩ | ⟨-, hidle⟩
  · exact fun _ hid => World.mem_applyAll_ready.mpr (.inl hid)
  · rw [hidle.ready]
    exact List.Subset.refl _

theorem ready_subset (h : (machine P config).exec r acts = some r') :
    r.world.ready ⊆ r'.world.ready :=
  Machine.exec_rel (m := machine P config) (R := fun r r' : Run => r.world.ready ⊆ r'.world.ready)
    (fun _ => List.Subset.refl _) (fun _ _ _ hst htu _ hid => htu (hst hid))
    (fun _ _ _ => ready_subset_step) h

/-- **Readiness**: once an event is made or written, all required participants are ready and have
connected; only required participants are ready, and they stay ready. -/
theorem readiness {started : ℤ} {shuffle : ℕ → List Duration → List Duration}
    {options : SafetyOptions} {stop : Bool}
    (hstart : start config started shuffle options stop = .ok r₀)
    (h : (machine P config).exec r₀ acts = some r) :
    ((∃ task ∈ r.tasks, ∃ e ∈ task.log, e.isEvent = true) →
      ∀ id ∈ config.synchronization.waitForReady, id ∈ r.world.ready ∧
        ∃ task ∈ r.tasks, task.participant.id = id ∧ .add .connectionSuccesses 1 ∈ task.log) ∧
    (∀ id ∈ r.world.ready, id ∈ config.synchronization.waitForReady) ∧
    ∀ acts' r', (machine P config).exec r acts' = some r' → r.world.ready ⊆ r'.world.ready := by
  have hconnected : (∀ task ∈ r.tasks, Marks config task) ∧ ReadyConnected config r := by
    refine Machine.exec_invariant (m := machine P config)
      (I := fun r => (∀ task ∈ r.tasks, Marks config task) ∧ ReadyConnected config r)
      (fun s a t hs hstep => ?_) ?_ h
    · exact ⟨marks_invariant.run_step hs.1 hstep, readyConnected_step hs.1 hs.2 hstep⟩
    · obtain ⟨-, delays, rfl⟩ := exists_of_mem_start hstart
      refine ⟨fun task htask => ?_, fun id hid => nomatch hid⟩
      exact marks_invariant.run hstart (Machine.exec_nil (m := machine P config)) task htask
  refine ⟨?_, fun id hid => (hconnected.2 id hid).1, fun acts' r' => ready_subset⟩
  rintro ⟨task, htask, hevent⟩ id hid
  have hready := admitted_invariant.run hstart h task htask (.inr hevent)
  have hmem := isReady_iff.mp hready id hid
  exact ⟨hmem, (hconnected.2 id hmem).2⟩

/-! ## Timeouts -/

/-- Is the main task past the barrier? -/
def IsPast (r : Run) : Prop :=
  match r.main with
  | .waiting _ | .timedOut => False
  | .joining _ _ | .returned _ => True

/-- The failures that the main task has collected. -/
def failures (r : Run) : List ParticipantFailure :=
  match r.main with
  | .waiting _ | .timedOut => []
  | .joining failures _ => failures
  | .returned outcome => outcome.participantFailures

/-- Is a readiness timeout reported? -/
def Reports (r : Run) : Prop := ∃ failure ∈ r.failures, failure.category = .readinessTimeout

theorem taskFailure_category {id : String} {result : Option (Except Failure Unit)}
    {failure : ParticipantFailure} (h : failure ∈ taskFailure id result) :
    failure.category ≠ .readinessTimeout := by
  rcases result with _ | ⟨error⟩ | _
  · obtain rfl := List.mem_singleton.mp h
    simp
  · obtain rfl := List.mem_singleton.mp h
    exact classifyParticipantError_category _ _
  · simp [taskFailure] at h

/-- A timeout is reported exactly for the participants that are missing. -/
theorem exists_readinessFailures_iff {ready : List String} :
    (∃ failure ∈ readinessFailures config ready, failure.category = .readinessTimeout) ↔
      isReady config ready = false := by
  rw [← Bool.not_eq_true, ← missing_eq_nil_iff]
  constructor
  · rintro ⟨failure, hmem, -⟩ hnil
    simp [readinessFailures, hnil] at hmem
  · intro hne
    obtain ⟨id, hid⟩ := List.exists_mem_of_ne_nil _ hne
    exact ⟨_, List.mem_map.mpr ⟨id, hid, rfl⟩, rfl⟩

/-- Past the barrier no step computes the missing participants, and no other failure is a
readiness timeout. -/
theorem reports_step_of_isPast (hpast : r.IsPast) (h : r.step P config act = some r') :
    act ≠ .missing ∧ r'.IsPast ∧ (r'.Reports ↔ r.Reports) := by
  obtain ⟨world, stop, tasks, main⟩ := r
  cases act with
  | elapse | stop =>
    obtain rfl := Option.some.inj h
    exact ⟨by simp, hpast, Iff.rfl⟩
  | forward =>
    simp only [step, Option.ite_none_right_eq_some, Option.some.injEq] at h
    obtain ⟨-, rfl⟩ := h
    exact ⟨by simp, hpast, Iff.rfl⟩
  | task i a =>
    simp only [step] at h
    split at h
    · cases h
    · obtain ⟨⟨state, effects⟩, -, rfl⟩ := Option.map_eq_some_iff.mp h
      exact ⟨by simp, hpast, Iff.rfl⟩
  | barrier a =>
    cases main with
    | waiting barrier => exact hpast.elim
    | _ => simp [step] at h
  | missing =>
    cases main with
    | timedOut => exact hpast.elim
    | _ => simp [step] at h
  | join i =>
    simp only [step] at h
    split at h
    · next failures joined task _ hget =>
      split at h
      · next result hresult =>
        simp only [Option.ite_none_right_eq_some, Option.some.injEq] at h
        obtain ⟨-, rfl⟩ := h
        refine ⟨by simp, trivial, ?_⟩
        -- the failure of a task is no readiness timeout
        simp only [Reports, Run.failures, List.mem_append]
        constructor
        · rintro ⟨failure, hmem | hmem, hcategory⟩
          · exact ⟨failure, hmem, hcategory⟩
          · exact absurd hcategory (taskFailure_category hmem)
        · rintro ⟨failure, hmem, hcategory⟩
          exact ⟨failure, .inl hmem, hcategory⟩
      · cases h
    · cases h
  | evaluate =>
    cases main with
    | joining failures joined =>
      simp only [step, Option.ite_none_right_eq_some, Option.some.injEq] at h
      obtain ⟨-, rfl⟩ := h
      exact ⟨by simp, trivial, Iff.rfl⟩
    | _ => simp [step] at h

/-- The step that computes the missing participants reports a timeout if there are any. -/
theorem reports_of_missing (h : r.step P config .missing = some r') :
    r'.IsPast ∧ (r'.Reports ↔ isReady config r.world.ready = false) := by
  obtain ⟨world, stop, tasks, main⟩ := r
  cases main with
  | timedOut =>
    obtain rfl := Option.some.inj h
    exact ⟨trivial, exists_readinessFailures_iff⟩
  | _ => simp [step] at h

theorem reports_of_isPast (hpast : r.IsPast) (h : (machine P config).exec r acts = some r') :
    .missing ∉ acts ∧ (r'.Reports ↔ r.Reports) := by
  induction acts generalizing r with
  | nil =>
    obtain rfl := Option.some.inj h
    exact ⟨by simp, Iff.rfl⟩
  | cons act acts ih =>
    obtain ⟨u, hstep, hrest⟩ := Machine.exec_cons.mp h
    obtain ⟨hact, hpast', hreports⟩ := reports_step_of_isPast hpast hstep
    obtain ⟨hacts, hrest'⟩ := ih hpast' hrest
    exact ⟨by simp [hact.symm, hacts], hrest'.trans hreports⟩

/-- **A timeout of the barrier is reported** exactly when somebody is still missing in the step
that computes the missing participants. -/
theorem timeout_reported_iff {outcome : ScenarioOutcome}
    (h : (machine P config).exec r₀ acts = some r) (hdone : r.main = .returned outcome) :
    (.missing ∈ acts →
      ∃ failure ∈ outcome.participantFailures, failure.category = .readinessTimeout) ↔
    (machine P config).Along (fun r act => act = .missing → isReady config r.world.ready = false)
      r₀ acts := by
  have houtcome : (∃ failure ∈ outcome.participantFailures,
      failure.category = .readinessTimeout) ↔ r.Reports := by
    simp only [Reports, failures, hdone]
  rw [houtcome]
  clear houtcome hdone
  induction acts generalizing r₀ with
  | nil => exact ⟨fun _ => trivial, fun _ hmem => by cases hmem⟩
  | cons act acts ih =>
    obtain ⟨u, hstep, hrest⟩ := Machine.exec_cons.mp h
    rw [Machine.along_cons (m := machine P config) hstep]
    by_cases hact : act = .missing
    · subst hact
      obtain ⟨hpast', hreports⟩ := reports_of_missing (P := P) hstep
      obtain ⟨hacts, hrest'⟩ := reports_of_isPast hpast' hrest
      -- the missing participants are computed once
      have hlater : (machine P config).Along
          (fun r act => act = .missing → isReady config r.world.ready = false) u acts :=
        Machine.along_of_forall fun _ a ha hmissing => absurd (hmissing ▸ ha) hacts
      rw [hrest', hreports]
      simp [hlater]
    · have hmem : .missing ∈ act :: acts ↔ .missing ∈ acts := by
        simp [Ne.symm hact]
      rw [hmem]
      refine (ih hrest).trans ⟨fun halong => ⟨fun hmissing => absurd hmissing hact, halong⟩, ?_⟩
      exact fun halong => halong.2

/-! ## Two runs with a barrier -/

namespace Gated

/-- A sender that waits for itself. -/
def sender : ParticipantConfig := { id := "sender", role := .sendOnly }

/-- A barrier that times out after a second; events are malformed. -/
def gated : AppConfig where
  authorization := { acknowledged := true }
  participants := [sender]
  synchronization := { waitForReady := ["sender"], timeout := some (Duration.fromSecs 1) }
  scenario := { invalid := { enabled := true, maxEvents := some 1 } }

/-- The participant connects, and is marked ready. -/
def connecting : List RunAct :=
  [.task 0 .start, .task 0 .delayOver, .task 0 .enterLoop, .task 0 (.connected 0),
    .task 0 .sampled, .task 0 .marked, .task 0 .notified]

/-- The barrier opens, and the participant sends. -/
def sending : List RunAct :=
  connecting ++ [.task 0 (.session (.barrier .check)), .elapse (Duration.fromSecs 30),
    .task 0 (.session (.sender (.tick 0 7)))]

/-- The main task waits until the barrier times out. -/
def timingOut : List RunAct :=
  [.barrier .check, .barrier .arm, .elapse (Duration.fromSecs 1), .barrier .deadline]

/-- The participant is stopped, and joined. -/
def stopping : List RunAct :=
  [.task 0 (.session (.barrier .check)), .task 0 (.session (.sender .stopped)),
    .task 0 .sessionOver, .join 0, .evaluate]

/-- The participant becomes ready between the timeout and the search for the missing. -/
def late : List RunAct := timingOut ++ connecting ++ .missing :: stopping

/-- The participant becomes ready after the search for the missing. -/
def tooLate : List RunAct := timingOut ++ .missing :: [.task 0 .start, .join 0, .evaluate]

/-- The outcome of a run. -/
def outcome (acts : List RunAct) : Option ScenarioOutcome :=
  ((machine Reference.platform gated).exec (spawn gated [0] false) acts).bind fun r =>
    match r.main with
    | .returned outcome => some outcome
    | _ => none

theorem start_gated : start gated 0 (fun _ => id) {} false = .ok (spawn gated [0] false) := rfl

theorem exists_of_outcome {acts : List RunAct} {o : ScenarioOutcome}
    (h : outcome acts = some o) :
    ∃ r, (machine Reference.platform gated).exec (spawn gated [0] false) acts = some r ∧
      r.main = .returned o := by
  obtain ⟨r, hr, hmain⟩ := Option.bind_eq_some_iff.mp h
  refine ⟨r, hr, ?_⟩
  split at hmain
  · next heq => rw [heq, Option.some.inj hmain]
  · cases hmain

end Gated

/-- A run with an event. -/
theorem readiness_gated :
    ∃ r, (machine Reference.platform Gated.gated).exec (spawn Gated.gated [0] false)
        Gated.sending = some r ∧ "sender" ∈ r.world.ready := by
  have hsends : (((machine Reference.platform Gated.gated).exec (spawn Gated.gated [0] false)
      Gated.sending).any fun r => r.tasks.any fun task => task.log.any Effect.isEvent) = true := by
    decide +kernel
  obtain ⟨r, hexec, hevent⟩ := (Option.any_eq_true _ _).mp hsends
  simp only [List.any_eq_true] at hevent
  exact ⟨r, hexec, ((readiness Gated.start_gated hexec).1 hevent "sender" (by decide)).1⟩

/-- A timeout that is reported. -/
theorem timeout_reported_iff_tooLate :
    (machine Reference.platform Gated.gated).Along
      (fun r act => act = .missing → isReady Gated.gated r.world.ready = false)
      (spawn Gated.gated [0] false) Gated.tooLate := by
  obtain ⟨r, hexec, hdone⟩ := Gated.exists_of_outcome
    (show Gated.outcome Gated.tooLate = some
      { participantFailures := [⟨.readinessTimeout, .readiness, "sender"⟩] } by decide +kernel)
  exact (timeout_reported_iff hexec hdone).mp fun _ => ⟨_, List.mem_singleton_self _, rfl⟩

/-- A run of an accepted configuration that is cancelled by the barrier and reports nothing. -/
theorem timeout_silent :
    start Gated.gated 0 (fun _ => id) {} false = .ok (spawn Gated.gated [0] false) ∧
      ∃ acts r, (machine Reference.platform Gated.gated).exec (spawn Gated.gated [0] false) acts =
          some r ∧ .missing ∈ acts ∧ r.main = .returned {} := by
  obtain ⟨r, hexec, hdone⟩ := Gated.exists_of_outcome
    (show Gated.outcome Gated.late = some {} by decide +kernel)
  exact ⟨Gated.start_gated, Gated.late, r, hexec, by simp [Gated.late], hdone⟩

end Run

end TakBench
