import Mathlib.Algebra.Order.BigOperators.Group.List
import TakBench.Protocol.Reference
import TakBench.Scenario.Connection

/-!
# The connection counters of a run

The counters of a run are sums over its tasks, and the log of each task is a story of connections.
So what each story says of its counts, the counters say of the run. Tasks run in parallel and the
counters are atomic one by one, so somebody who looks at them may see a part of a step: a `Moment`
of a run takes a part of the log of each task.

## Main definitions

* `sumOver`: a count over the logs of all tasks
* `Run.Moment`: what the tasks have done between two effects
* `Consistent`: the relations between the connection counters

## Main results

* `Run.counted_step`: the counters are what the tasks have added and not taken
* `Run.connection_counters`: the counters of every reachable run
-/

namespace TakBench

/-! ## Sums over the tasks -/

/-- A count over the logs of all tasks. -/
def sumOver (f : Effect → ℕ) (logs : List (List Effect)) : ℕ := (logs.map (total f)).sum

theorem sumOver_le {f g : Effect → ℕ} {logs : List (List Effect)}
    (h : ∀ log ∈ logs, total f log ≤ total g log) : sumOver f logs ≤ sumOver g logs :=
  List.sum_le_sum h

/-- A task goes on. -/
theorem sumOver_set {f : Effect → ℕ} {logs : List (List Effect)} {i : ℕ} {log out : List Effect}
    (h : logs[i]? = some log) :
    sumOver f (logs.set i (log ++ out)) = sumOver f logs + total f out := by
  induction logs generalizing i with
  | nil => simp at h
  | cons first logs ih =>
    cases i with
    | zero =>
      obtain rfl := Option.some.inj h
      simp only [sumOver, List.set_cons_zero, List.map_cons, List.sum_cons, total_append]
      omega
    | succ i =>
      have hrest := ih h
      simp only [sumOver, List.set_cons_succ, List.map_cons, List.sum_cons] at hrest ⊢
      omega

/-- The counters after the effects of a step, which never takes more than there is. -/
theorem World.counters_applyAll {w : World} {counter : Counter} {out : List Effect}
    (h : ∀ before, before <+: out → total (Effect.subtracted counter) before ≤
      w.counters counter + total (Effect.added counter) before) :
    (w.applyAll out).counters counter + total (Effect.subtracted counter) out =
      w.counters counter + total (Effect.added counter) out := by
  induction out generalizing w with
  | nil => rfl
  | cons e out ih =>
    -- the effect alone is a part of the effects, and does not underflow
    have hfirst : (w.apply e).counters counter + e.subtracted counter =
        w.counters counter + e.added counter := by
      have hle := h [e] (by simp)
      cases e with
      | add other n =>
        by_cases hother : other = counter
        · subst hother
          simp [apply, Effect.added, Effect.subtracted]
        · simp [apply, Effect.added, Effect.subtracted, hother, Function.update_of_ne
            (Ne.symm hother)]
      | sub other n =>
        by_cases hother : other = counter
        · subst hother
          simp only [total_cons, total_nil, Effect.subtracted, Effect.added, if_true] at hle
          simp only [apply, Effect.subtracted, Effect.added, Function.update_self, if_true]
          omega
        · simp [apply, Effect.added, Effect.subtracted, hother, Function.update_of_ne
            (Ne.symm hother)]
      | _ => rfl
    have hrest := ih (w := w.apply e) fun before hbefore => by
      have hle := h (e :: before) (List.cons_prefix_cons.mpr ⟨rfl, hbefore⟩)
      rw [total_cons, total_cons] at hle
      omega
    rw [applyAll_cons, total_cons, total_cons]
    omega

/-! ## The counters of a run -/

/-- Is a connection of the participant open, from its success to the end of its session? -/
def Participant.isOpen (p : Participant) : Bool :=
  match p.phase with
  | .sampling _ | .marking | .notifying | .connected _ => true
  | _ => false

/-- The relations between the connection counters. -/
structure Consistent (count : Counter → ℕ) : Prop where
  successes_le : count .connectionSuccesses ≤ count .connectionAttempts
  failures_le : count .connectionFailures ≤ count .connectionAttempts
  tlsFailures_le : count .tlsFailures ≤ count .connectionFailures
  reconnects_le : count .reconnects ≤ count .connectionSuccesses
  reconnectFailures_le : count .reconnectFailures ≤ count .connectionFailures

/-- The log of a task tells the story of its connections. -/
def Linked (config : AppConfig) (task : Task) : Prop :=
  ∃ link, (Link.machine task.participant.id).exec .idle task.log = some link ∧
    task.state.Connects config link (total (Effect.added .connectionAttempts) task.log)

namespace Run

variable {P : Platform} {config : AppConfig} {r r' r₀ : Run} {act : RunAct} {acts : List RunAct}

theorem linked_invariant : TaskInvariant P config (fun _ => Linked config) where
  spawn w participant delay _ := ⟨.idle, rfl, rfl, rfl⟩
  later w w' task _ _ htask := htask
  step w task act state effects htask h := by
    obtain ⟨link, hlog, hconnects⟩ := htask
    obtain ⟨link', hout, hconnects'⟩ := Participant.connects_step h hconnects
    refine ⟨link', Machine.exec_append hlog hout, ?_⟩
    rw [total_append]
    exact hconnects'

/-- What the tasks have done. -/
def logs (r : Run) : List (List Effect) := r.tasks.map (·.log)

/-- What the tasks have done at a moment of a run: each of them a part of its log. -/
def Moment (r : Run) (logs : List (List Effect)) : Prop :=
  List.Forall₂ (fun log whole => log <+: whole) logs r.logs

theorem Moment.exists_whole {logs : List (List Effect)} (h : r.Moment logs) {log : List Effect}
    (hlog : log ∈ logs) : ∃ whole ∈ r.logs, log <+: whole := by
  rw [Moment] at h
  generalize r.logs = wholes at h
  induction h with
  | nil => cases hlog
  | cons hfirst hrest ih =>
    rcases List.mem_cons.mp hlog with rfl | hlog
    · exact ⟨_, List.mem_cons_self, hfirst⟩
    · obtain ⟨whole, hwhole, hinit⟩ := ih hlog
      exact ⟨whole, List.mem_cons_of_mem _ hwhole, hinit⟩

/-- A story of connections. -/
def IsStory (log : List Effect) : Prop := ∃ id link, (Link.machine id).exec .idle log = some link

theorem IsStory.of_init {log whole : List Effect} (h : IsStory whole) (hinit : log <+: whole) :
    IsStory log := by
  obtain ⟨id, link, hwhole⟩ := h
  obtain ⟨rest, rfl⟩ := hinit
  obtain ⟨link', hlog, -⟩ := Machine.exists_of_exec_append hwhole
  exact ⟨id, link', hlog⟩

/-- No story takes more from a counter than it adds. -/
theorem IsStory.subtracted_le {log : List Effect} {counter : Counter} (h : IsStory log) :
    total (Effect.subtracted counter) log ≤ total (Effect.added counter) log := by
  obtain ⟨id, link, hlog⟩ := h
  by_cases hcounter : counter = .activeConnections
  · subst hcounter
    rw [Link.added_active hlog]
    exact Nat.le_add_right _ _
  · rw [Link.subtracted_eq_zero hlog hcounter]
    exact Nat.zero_le _

/-- The counters of stories are consistent. -/
theorem consistent_of_isStory {logs : List (List Effect)} (h : ∀ log ∈ logs, IsStory log) :
    Consistent fun counter => sumOver (Effect.added counter) logs where
  successes_le := sumOver_le fun log hlog => by
    obtain ⟨id, link, hstory⟩ := h log hlog
    exact Link.successes_le_attempts hstory
  failures_le := sumOver_le fun log hlog => by
    obtain ⟨id, link, hstory⟩ := h log hlog
    exact Link.failures_le_attempts hstory
  tlsFailures_le := sumOver_le fun log hlog => by
    obtain ⟨id, link, hstory⟩ := h log hlog
    exact Link.tlsFailures_le_failures hstory
  reconnects_le := sumOver_le fun log hlog => by
    obtain ⟨id, link, hstory⟩ := h log hlog
    exact Link.reconnects_le_successes hstory
  reconnectFailures_le := sumOver_le fun log hlog => by
    obtain ⟨id, link, hstory⟩ := h log hlog
    exact Link.reconnectFailures_le_failures hstory

theorem isStory_of_linked (h : ∀ task ∈ r.tasks, Linked config task) :
    ∀ log ∈ r.logs, IsStory log := by
  intro log hlog
  obtain ⟨task, htask, rfl⟩ := List.mem_map.mp hlog
  obtain ⟨link, hstory, -⟩ := h task htask
  exact ⟨_, link, hstory⟩

/-- The counters are what the tasks have added and not taken. -/
def Counted (r : Run) : Prop :=
  ∀ counter, r.world.counters counter + sumOver (Effect.subtracted counter) r.logs =
    sumOver (Effect.added counter) r.logs

/-- **A step counts** what its task adds and takes. -/
theorem counted_step (hlinked : ∀ task ∈ r.tasks, Linked config task) (hr : r.Counted)
    (h : r.step P config act = some r') : r'.Counted := by
  have hlinked' : ∀ task ∈ r'.tasks, Linked config task := linked_invariant.run_step hlinked h
  intro counter
  have hcounter := hr counter
  rcases step_cases h with ⟨i, a, task, state, out, rfl, hget, -, rfl⟩ | ⟨-, hidle⟩
  · have hlog : r.logs[i]? = some task.log := by
      rw [logs, List.getElem?_map, hget]
      rfl
    have hlogs : (r.advance i task state out).logs = r.logs.set i (task.log ++ out) :=
      List.map_set
    have hstories := isStory_of_linked hlinked'
    rw [hlogs] at hstories ⊢
    rw [sumOver_set hlog, sumOver_set hlog]
    -- every part of the effects of the step goes on with the story of the task
    have hparts : ∀ before, before <+: out → total (Effect.subtracted counter) before ≤
        r.world.counters counter + total (Effect.added counter) before := by
      intro before hbefore
      have hle : sumOver (Effect.subtracted counter) (r.logs.set i (task.log ++ before)) ≤
          sumOver (Effect.added counter) (r.logs.set i (task.log ++ before)) := by
        refine sumOver_le fun log hmem => IsStory.subtracted_le ?_
        rcases List.mem_or_eq_of_mem_set hmem with hmem | rfl
        · exact isStory_of_linked hlinked log hmem
        · have hlt : i < r.logs.length := (List.getElem?_eq_some_iff.mp hlog).1
          exact (hstories _ (List.mem_set hlt _)).of_init
            ((List.prefix_append_right_inj _).mpr hbefore)
      rw [sumOver_set hlog, sumOver_set hlog] at hle
      omega
    have hworld := World.counters_applyAll hparts
    have hadvance : (r.advance i task state out).world = r.world.applyAll out := rfl
    rw [hadvance]
    omega
  · rw [hidle.counters, logs, hidle.tasks]
    exact hcounter

/-- A connection is counted as active while it is open. -/
theorem active_of_linked {task : Task} (h : Linked config task) :
    total (Effect.added .activeConnections) task.log =
      total (Effect.subtracted .activeConnections) task.log +
        if task.state.isOpen then 1 else 0 := by
  obtain ⟨participant, ⟨phase, attempt, recoveryStarted⟩, log⟩ := task
  obtain ⟨link, hlog, hconnects⟩ := h
  have hactive : link.isActive = (Participant.mk phase attempt recoveryStarted).isOpen := by
    cases phase with
    | dialing | marking | notifying | connected _ =>
      obtain ⟨rfl, -⟩ := hconnects
      rfl
    | sampling sample =>
      obtain ⟨rfl, -⟩ := hconnects
      cases sample <;> rfl
    -- outside of a dial the link is one that is not open
    | _ => cases link <;> first | rfl | cases hconnects.1
  rw [Link.added_active hlog, hactive]

/-- The active connections are the open ones. -/
theorem active_eq (hlinked : ∀ task ∈ r.tasks, Linked config task) (hr : r.Counted) :
    r.world.counters .activeConnections = r.tasks.countP (·.state.isOpen) := by
  -- task by task, what is added and not taken is one for each that is open
  have hsum : ∀ tasks : List Task, (∀ task ∈ tasks, Linked config task) →
      sumOver (Effect.added .activeConnections) (tasks.map (·.log)) =
        sumOver (Effect.subtracted .activeConnections) (tasks.map (·.log)) +
          tasks.countP (·.state.isOpen) := by
    intro tasks htasks
    induction tasks with
    | nil => rfl
    | cons task tasks ih =>
      have hfirst := active_of_linked (htasks task List.mem_cons_self)
      have hrest := ih fun task htask => htasks task (List.mem_cons_of_mem _ htask)
      simp only [sumOver, List.map_cons, List.sum_cons, List.countP_cons] at hrest ⊢
      omega
  have hcounter := hr .activeConnections
  have hopen := hsum r.tasks hlinked
  rw [logs] at hcounter
  omega

/-- A participant dials at most once more than it may dial again. -/
theorem dials_le_of_connects {p : Participant} {link : Link} {dials : ℕ}
    (h : p.Connects config link dials) : dials ≤ Participant.maxRedials config + 1 := by
  obtain ⟨phase, attempt, recoveryStarted⟩ := p
  cases phase with
  | spawned | ramping => exact h.2 ▸ Nat.zero_le _
  | looping | backingOff => exact (h.2.1.trans h.2.2).trans (Nat.le_succ _)
  | dialing | sampling | marking | notifying | connected =>
    exact h.2.1.trans (Nat.succ_le_succ h.2.2)
  | retrying => exact h.2.1.trans (Nat.succ_le_succ h.2.2.1)
  | returned | panicked => exact h.2

theorem linked_spawn (delays : List Duration) (stop : Bool) :
    ∀ task ∈ (spawn config delays stop).tasks, Linked config task := by
  rintro ⟨participant, state, log⟩ htask
  obtain ⟨-, hlog, delay, hstate⟩ := exists_of_mem_spawn htask
  simp only at hlog hstate
  subst hlog hstate
  exact ⟨.idle, rfl, rfl, rfl⟩

theorem spawn_counted (delays : List Duration) (stop : Bool) :
    (spawn config delays stop).Counted := by
  intro counter
  have hnone : ∀ f, sumOver f (spawn config delays stop).logs = 0 := by
    intro f
    refine List.sum_eq_zero fun n hn => ?_
    obtain ⟨log, hlog, rfl⟩ := List.mem_map.mp hn
    obtain ⟨task, htask, rfl⟩ := List.mem_map.mp hlog
    rw [(exists_of_mem_spawn htask).2.1]
    rfl
  rw [hnone, hnone]
  rfl

/-- But for the active connections, a counter is what the tasks have added. -/
theorem counters_eq_sumOver {counter : Counter}
    (hlinked : ∀ task ∈ r.tasks, Linked config task) (hr : r.Counted)
    (hcounter : counter ≠ .activeConnections) :
    r.world.counters counter = sumOver (Effect.added counter) r.logs := by
  have hnone : sumOver (Effect.subtracted counter) r.logs = 0 := by
    apply List.sum_eq_zero
    intro n hn
    obtain ⟨log, hlog, rfl⟩ := List.mem_map.mp hn
    obtain ⟨id, link, hstory⟩ := isStory_of_linked hlinked log hlog
    exact Link.subtracted_eq_zero hstory hcounter
  rw [← hr counter, hnone, Nat.add_zero]

/-- A counter that no task has added to. -/
theorem counter_eq_zero {counter : Counter} (hlinked : ∀ task ∈ r.tasks, Linked config task)
    (hr : r.Counted) (hcounter : counter ≠ .activeConnections)
    (hnone : ∀ task ∈ r.tasks, ∀ e ∈ task.log, e.added counter = 0) :
    r.world.counters counter = 0 := by
  rw [counters_eq_sumOver hlinked hr hcounter]
  apply List.sum_eq_zero
  intro n hn
  obtain ⟨log, hlog, rfl⟩ := List.mem_map.mp hn
  obtain ⟨task, htask, rfl⟩ := List.mem_map.mp hlog
  exact total_eq_zero (hnone task htask)

/-- The counters of a run are consistent: but for the active connections, they are sums over
stories. -/
theorem consistent_counters (hlinked : ∀ task ∈ r.tasks, Linked config task) (hr : r.Counted) :
    Consistent r.world.counters := by
  have hstories := isStory_of_linked hlinked
  have hsame : ∀ counter, counter ≠ .activeConnections →
      r.world.counters counter = sumOver (Effect.added counter) r.logs :=
    fun counter => counters_eq_sumOver hlinked hr
  have hconsistent := consistent_of_isStory hstories
  constructor
  · rw [hsame .connectionSuccesses (by simp), hsame .connectionAttempts (by simp)]
    exact hconsistent.successes_le
  · rw [hsame .connectionFailures (by simp), hsame .connectionAttempts (by simp)]
    exact hconsistent.failures_le
  · rw [hsame .tlsFailures (by simp), hsame .connectionFailures (by simp)]
    exact hconsistent.tlsFailures_le
  · rw [hsame .reconnects (by simp), hsame .connectionSuccesses (by simp)]
    exact hconsistent.reconnects_le
  · rw [hsame .reconnectFailures (by simp), hsame .connectionFailures (by simp)]
    exact hconsistent.reconnectFailures_le

/-- The counters of every run are what its tasks have added and not taken. -/
theorem counted_of_exec {started : ℤ} {shuffle : ℕ → List Duration → List Duration}
    {options : SafetyOptions} {stop : Bool}
    (hstart : start config started shuffle options stop = .ok r₀)
    (h : (machine P config).exec r₀ acts = some r) : r.Counted := by
  obtain ⟨-, delays, rfl⟩ := exists_of_mem_start hstart
  -- that nothing underflows needs the stories of the tasks
  have hall := Machine.exec_invariant (m := machine P config)
    (I := fun r => (∀ task ∈ r.tasks, Linked config task) ∧ r.Counted)
    (fun s a t hs hstep => ⟨linked_invariant.run_step hs.1 hstep, counted_step hs.1 hs.2 hstep⟩)
    ⟨linked_spawn delays stop, spawn_counted delays stop⟩ h
  exact hall.2

/-- **The connection counters** of every reachable run, and of every moment of it: they are
consistent and never underflow, a connection is active exactly as long as it is open, a participant
dials at most once for each attempt that it has, and nothing is active once all have returned. -/
theorem connection_counters {started : ℤ} {shuffle : ℕ → List Duration → List Duration}
    {options : SafetyOptions} {stop : Bool}
    (hstart : start config started shuffle options stop = .ok r₀)
    (h : (machine P config).exec r₀ acts = some r) :
    (r.world.counters .activeConnections = r.tasks.countP (·.state.isOpen)) ∧
    Consistent r.world.counters ∧
    (∀ logs, r.Moment logs → Consistent (fun counter => sumOver (Effect.added counter) logs) ∧
      sumOver (Effect.subtracted .activeConnections) logs ≤
        sumOver (Effect.added .activeConnections) logs) ∧
    (∀ task ∈ r.tasks, total (Effect.added .connectionAttempts) task.log ≤
      if config.reconnect.enabled then 1 + config.reconnect.maxAttempts.toNat else 1) ∧
    ((∀ task ∈ r.tasks, ∃ result, task.state.phase = .returned result) →
      r.world.counters .activeConnections = 0) := by
  have hlinked : ∀ task ∈ r.tasks, Linked config task := linked_invariant.run hstart h
  have hcounted : r.Counted := counted_of_exec hstart h
  have hactive := active_eq hlinked hcounted
  have hstories := isStory_of_linked hlinked
  refine ⟨hactive, ?_, ?_, ?_, ?_⟩
  · exact consistent_counters hlinked hcounted
  · -- a part of a story is a story
    intro logs hmoment
    have hparts : ∀ log ∈ logs, IsStory log := by
      intro log hlog
      obtain ⟨whole, hwhole, hinit⟩ := hmoment.exists_whole hlog
      exact (hstories whole hwhole).of_init hinit
    exact ⟨consistent_of_isStory hparts, sumOver_le fun log hlog => (hparts log hlog).subtracted_le⟩
  · intro task htask
    obtain ⟨link, -, hconnects⟩ := hlinked task htask
    have hdials := dials_le_of_connects hconnects
    rw [Participant.maxRedials] at hdials
    split <;> simp_all [Nat.add_comm]
  · intro hreturned
    rw [hactive, List.countP_eq_zero]
    intro task htask
    obtain ⟨result, hphase⟩ := hreturned task htask
    simp [Participant.isOpen, hphase]

/-! ## A run with a reconnect -/

namespace Redialed

/-- A participant that dials again, without jitter. -/
def patient : AppConfig where
  authorization := { acknowledged := true }
  participants := [{ id := "peer" }]
  reconnect := { enabled := true, jitterPercent := 0 }

/-- The first dial is refused, and the second one succeeds. -/
def redialing : List RunAct :=
  [.task 0 .start, .task 0 .delayOver, .task 0 .enterLoop, .task 0 (.connectFailed .tcp []),
    .task 0 (.retry 1), .elapse (Duration.fromMillis 250), .task 0 .delayOver, .task 0 .enterLoop,
    .task 0 (.connected 0), .task 0 .sampled, .task 0 .sampled]

end Redialed

/-- The connection counters of a participant that has connected again. -/
theorem connection_counters_redialed :
    ∃ r, (machine Reference.platform Redialed.patient).exec
        (spawn Redialed.patient [0] false) Redialed.redialing = some r ∧
      r.world.counters .activeConnections = r.tasks.countP (·.state.isOpen) ∧
      Consistent r.world.counters := by
  have hstart : start Redialed.patient 0 (fun _ => id) {} false =
      .ok (spawn Redialed.patient [0] false) := rfl
  have hexec : ((machine Reference.platform Redialed.patient).exec
      (spawn Redialed.patient [0] false) Redialed.redialing).isSome = true := by decide +kernel
  obtain ⟨r, hr⟩ := Option.isSome_iff_exists.mp hexec
  obtain ⟨hactive, hconsistent, -⟩ := connection_counters hstart hr
  exact ⟨r, hr, hactive, hconsistent⟩

end Run

end TakBench
