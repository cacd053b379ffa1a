import TakBench.Scenario.Cancellation
import TakBench.Scenario.Channels
import TakBench.Scenario.Dials
import TakBench.Scheduling

/-!
# The connections at the end of a run

Once stop or the deadline is up, nobody dials any more. A dial that is in progress then may still
succeed, since its `select!` may find it done; but a session that fails is not followed by another
one, and who is neither connected nor dialing does nothing any more.

## Main definitions

* `Task.Winds`: what a task still does at the end of a run

## Main results

* `Participant.winds_step`: one step of a participant
* `Run.shuts_down`: the connections at the end of a run
-/

namespace TakBench

variable {P : Platform} {participant : ParticipantConfig} {config : AppConfig} {w : World}
  {p p' : Participant} {act : ParticipantAct} {out : List Effect}

/-! ## One participant -/

namespace Participant

/-- What a participant still does: no dial, and a connection only if it was dialing. -/
structure Winds (p p' : Participant) (out : List Effect) : Prop where
  attempts : total (Effect.added .connectionAttempts) out = 0
  successes : total (Effect.added .connectionSuccesses) out + p'.isDialing.toNat ≤ p.isDialing.toNat
  idle : p.isConnected = false → out = [] ∧ p'.isConnected = false

theorem Winds.refl (p : Participant) : p.Winds p [] := ⟨rfl, by simp, fun h => ⟨rfl, h⟩⟩

theorem Winds.trans {p'' : Participant} {out' : List Effect} (h : p.Winds p' out)
    (h' : p'.Winds p'' out') : p.Winds p'' (out ++ out') := by
  refine ⟨?_, ?_, fun hidle => ?_⟩
  · rw [total_append, h.attempts, h'.attempts]
  · have hfirst := h.successes
    have hsecond := h'.successes
    rw [total_append]
    omega
  · obtain ⟨rfl, hidle'⟩ := h.idle hidle
    exact h'.idle hidle'

/-- A step without effects, after which nobody dials. -/
theorem Winds.quiet (hdialing : p'.isDialing = false)
    (hidle : p.isConnected = false → p'.isConnected = false) : p.Winds p' [] :=
  ⟨rfl, by simp [hdialing], fun h => ⟨rfl, hidle h⟩⟩

/-- A step of a participant that is connected or dials, after which it does not dial. -/
theorem Winds.leave {phase : ParticipantPhase} (hconnected : p.isConnected = true)
    (hattempts : total (Effect.added .connectionAttempts) out = 0)
    (hsuccesses : total (Effect.added .connectionSuccesses) out ≤ p.isDialing.toNat)
    (hdialing : (p.goto phase).isDialing = false) : p.Winds (p.goto phase) out :=
  ⟨hattempts, by simpa [hdialing] using hsuccesses,
    fun hidle => absurd (hconnected.symm.trans hidle) (by simp)⟩

theorem not_isConnected_retry (failure : Failure) (factor : ℚ) :
    (p.retry config w failure factor).isConnected = false ∧
      (p.retry config w failure factor).isDialing = false := by
  unfold retry backOff
  split
  · exact ⟨rfl, rfl⟩
  · split
    · exact ⟨rfl, rfl⟩
    · split
      · exact ⟨rfl, rfl⟩
      · exact ⟨rfl, rfl⟩

theorem total_attempts_of_session {session session' : Session} {a : SessionAct}
    (h : session.step P participant config w a = some (session', out)) :
    total (Effect.added .connectionAttempts) out = 0 :=
  total_eq_zero fun e he => Link.added_of_isNeutral (Session.step_ofSession h e he).isNeutral rfl

/-- **A step of a participant**, once stop or the deadline is up. -/
theorem winds_step (hover : w.stop = true ∨ config.run.duration ≤ w.now)
    (h : p.step P participant config w act = some (p', out)) : p.Winds p' out := by
  have hsuccesses := total_successes h
  have hconnected : ∀ phase, p.phase = phase → (p.goto phase).isConnected = true →
      p.isConnected = true := by
    rintro phase rfl hphase
    exact hphase
  cases steps_of_step h with
  | dial hphase hstop hnow =>
    -- the loop is left instead
    rcases hover with hover | hover
    · cases hstop.symm.trans hover
    · exact absurd hover (Nat.not_le.mpr hnow)
  | connect handshakeTime hphase =>
    refine .leave (hconnected _ hphase rfl) rfl ?_ rfl
    rw [hsuccesses, isDialing, hphase]
    rfl
  | reconnect elapsed hphase =>
    exact .leave (hconnected _ hphase rfl) rfl (Nat.zero_le _) rfl
  | openRequired sample hphase | openSession sample hphase =>
    exact .leave (hconnected _ hphase rfl) (total_attempts_recordConnected sample)
      (hsuccesses.le.trans (Nat.zero_le _)) rfl
  | connectRetried error source hphase | connectFails error source hphase =>
    refine .leave (hconnected _ hphase rfl) (total_attempts_recordConnectFailed _) ?_ rfl
    exact hsuccesses.le.trans (Nat.zero_le _)
  | marked hphase | notified hphase =>
    exact .leave (hconnected _ hphase rfl) rfl (Nat.zero_le _) rfl
  | session session session' a out hphase hsession =>
    exact .leave (hconnected _ hphase rfl) (total_attempts_of_session hsession)
      (hsuccesses.le.trans (Nat.zero_le _)) rfl
  | sessionOver result hphase =>
    refine .leave (hconnected _ hphase rfl) (total_attempts_recordSessionOver _)
      (hsuccesses.le.trans (Nat.zero_le _)) ?_
    unfold afterSession
    split
    · rfl
    · split <;> rfl
  | retry factor failure hphase =>
    obtain ⟨hidle, hdialing⟩ : (p.retry config w failure factor).isConnected = false ∧
        (p.retry config w failure factor).isDialing = false := not_isConnected_retry failure factor
    exact .quiet hdialing fun _ => hidle
  | enter endsAt hphase =>
    refine .quiet ?_ fun _ => ?_ <;> unfold enter <;> split <;> rfl
  | _ => exact .quiet rfl fun _ => rfl

end Participant

/-! ## The run -/

/-- What a task still does between two moments. -/
def Task.Winds (task task' : Task) : Prop :=
  ∃ out, task'.log = task.log ++ out ∧ task.state.Winds task'.state out

theorem Task.Winds.refl (task : Task) : task.Winds task :=
  ⟨[], (List.append_nil _).symm, .refl _⟩

theorem Task.Winds.trans {task task' task'' : Task} (h : task.Winds task')
    (h' : task'.Winds task'') : task.Winds task'' := by
  obtain ⟨out, hlog, hwinds⟩ := h
  obtain ⟨out', hlog', hwinds'⟩ := h'
  exact ⟨out ++ out', by rw [hlog', hlog, List.append_assoc], hwinds.trans hwinds'⟩

/-- Tasks that wind down count no dials, and successes only for the dials in progress. -/
theorem sumOver_of_winds {tasks tasks' : List Task} (h : List.Forall₂ Task.Winds tasks tasks') :
    sumOver (Effect.added .connectionAttempts) (tasks'.map (·.log)) =
      sumOver (Effect.added .connectionAttempts) (tasks.map (·.log)) ∧
    sumOver (Effect.added .connectionSuccesses) (tasks'.map (·.log)) +
        tasks'.countP (·.state.isDialing) ≤
      sumOver (Effect.added .connectionSuccesses) (tasks.map (·.log)) +
        tasks.countP (·.state.isDialing) := by
  have hcount : ∀ (task : Task) (rest : List Task), (task :: rest).countP (·.state.isDialing) =
      rest.countP (·.state.isDialing) + task.state.isDialing.toNat := by
    intro task rest
    rw [List.countP_cons]
    cases task.state.isDialing <;> rfl
  induction h with
  | nil => exact ⟨rfl, Nat.le_refl _⟩
  | cons hfirst _ ih =>
    obtain ⟨out, hlog, hwinds⟩ := hfirst
    have hattempts := hwinds.attempts
    have hsuccesses := hwinds.successes
    simp only [sumOver, List.map_cons, List.sum_cons, hcount, hlog, total_append] at ih ⊢
    omega

namespace Run

variable {r r' r₀ : Run} {a : RunAct} {acts acts' : List RunAct} {i : ℕ}

/-- The task at an index winds down between two states of a run that is over. -/
structure WindsAt (config : AppConfig) (i : ℕ) (task : Task) (r' : Run) : Prop where
  isOver : r'.IsOver config
  winds : ∃ task', r'.tasks[i]? = some task' ∧ task.Winds task'

theorem WindsAt.step {task : Task} (h : WindsAt config i task r)
    (hstep : r.step P config a = some r') : WindsAt config i task r' := by
  refine ⟨isOver_step h.isOver hstep, ?_⟩
  obtain ⟨task', hi, hwinds⟩ := h.winds
  rcases step_cases hstep with ⟨j, act, other, state, out, rfl, hget, htask, rfl⟩ | ⟨-, hidle⟩
  · by_cases hij : j = i
    · subst hij
      obtain rfl := Option.some.inj (hget.symm.trans hi)
      exact ⟨_, List.getElem?_set_self (List.getElem?_eq_some_iff.mp hget).1,
        hwinds.trans ⟨out, rfl, Participant.winds_step h.isOver htask⟩⟩
    · exact ⟨task', (List.getElem?_set_ne hij).trans hi, hwinds⟩
  · exact ⟨task', by rw [hidle.tasks, hi], hwinds⟩

/-- **Each task winds down.** -/
theorem winds_exec (hover : r.IsOver config) (h : (machine P config).exec r acts = some r') :
    List.Forall₂ Task.Winds r.tasks r'.tasks := by
  refine List.forall₂_iff_get.mpr ⟨(length_tasks h).symm, fun i hi hi' => ?_⟩
  have hwinds : WindsAt config i r.tasks[i] r' :=
    Machine.exec_invariant (m := machine P config) (fun _ _ _ hr hstep => hr.step hstep)
      ⟨hover, _, List.getElem?_eq_getElem hi, .refl _⟩ h
  obtain ⟨task', htask', hwinds⟩ := hwinds.winds
  obtain ⟨_, rfl⟩ := List.getElem?_eq_some_iff.mp htask'
  exact hwinds

/-- **The connections at the end of a run**: once stop or the deadline is up, no dial is made any
more, no more connections succeed than dials are in progress, and who is neither connected nor
dialing does nothing any more, and stays so. -/
theorem shuts_down {started : ℤ} {shuffle : ℕ → List Duration → List Duration}
    {options : SafetyOptions} {stop : Bool}
    (hstart : start config started shuffle options stop = .ok r₀)
    (h : (machine P config).exec r₀ acts = some r) (hover : r.IsOver config)
    (h' : (machine P config).exec r acts' = some r') :
    r'.world.counters .connectionAttempts = r.world.counters .connectionAttempts ∧
    r'.world.counters .connectionSuccesses + r'.tasks.countP (·.state.isDialing) ≤
      r.world.counters .connectionSuccesses + r.tasks.countP (·.state.isDialing) ∧
    ∀ (i : ℕ) (task task' : Task), r.tasks[i]? = some task → r'.tasks[i]? = some task' →
      task.state.isConnected = false →
        task'.state.isConnected = false ∧ task'.log = task.log := by
  have hwinds := winds_exec hover h'
  have hexec : (machine P config).exec r₀ (acts ++ acts') = some r' := Machine.exec_append h h'
  have hlinked : ∀ task ∈ r.tasks, Linked config task := linked_invariant.run hstart h
  have hlinked' : ∀ task ∈ r'.tasks, Linked config task := linked_invariant.run hstart hexec
  obtain ⟨hattempts, hsuccesses⟩ := sumOver_of_winds hwinds
  refine ⟨?_, ?_, fun i task task' hi hi' hidle => ?_⟩
  · rw [counters_eq_sumOver hlinked' (counted_of_exec hstart hexec) (by simp),
      counters_eq_sumOver hlinked (counted_of_exec hstart h) (by simp)]
    exact hattempts
  · rw [counters_eq_sumOver hlinked' (counted_of_exec hstart hexec) (by simp),
      counters_eq_sumOver hlinked (counted_of_exec hstart h) (by simp)]
    exact hsuccesses
  · obtain ⟨hlt, rfl⟩ := List.getElem?_eq_some_iff.mp hi
    obtain ⟨hlt', rfl⟩ := List.getElem?_eq_some_iff.mp hi'
    obtain ⟨out, hlog, hwinds⟩ := hwinds.get hlt hlt'
    obtain ⟨rfl, hidle'⟩ := hwinds.idle hidle
    exact ⟨hidle', hlog.trans (List.append_nil _)⟩

/-- One client dials and the other one waits when the run is stopped. -/
def stopping : List RunAct :=
  [.task 0 .start, .task 1 .start, .task 0 .delayOver, .task 0 .enterLoop, .stop, .forward]

/-- The dial succeeds after all, and the wait is over. -/
def winding : List RunAct := [.task 0 (.connected 0), .task 0 .sampled, .task 1 .delayCut]

/-- A dial that is in progress when the run is stopped, and succeeds. -/
theorem shuts_down_dialing :
    ∃ r r', (machine Reference.platform ramped).exec
        (spawn ramped [0, Duration.fromSecs 10] false) stopping = some r ∧
      (machine Reference.platform ramped).exec r winding = some r' ∧
      r'.world.counters .connectionSuccesses = 1 ∧
      r'.world.counters .connectionAttempts = r.world.counters .connectionAttempts := by
  have hstart : start ramped 0 (fun _ => id) {} false =
      .ok (spawn ramped [0, Duration.fromSecs 10] false) := rfl
  obtain ⟨r, hr, hrest⟩ := Option.bind_eq_some_iff.mp (show
    ((machine Reference.platform ramped).exec (spawn ramped [0, Duration.fromSecs 10] false)
      stopping).bind (fun r => ((machine Reference.platform ramped).exec r winding).map fun r' =>
        (r.world.stop, r'.world.counters .connectionSuccesses)) = some (true, 1) by
          decide +kernel)
  obtain ⟨r', hr', hcounts⟩ := Option.map_eq_some_iff.mp hrest
  obtain ⟨hstop, hsuccesses⟩ := Prod.mk.inj hcounts
  exact ⟨r, r', hr, hr', hsuccesses, (shuts_down hstart hr (.inl hstop) hr').1⟩

end Run

end TakBench
