import TakBench.Scenario.Run

/-!
# The end of a run

The main task joins a task only when it is done, and it evaluates the assertions only when it has
joined all tasks. A task that is done stays done, so a run that has returned has no task left that
works, and its outcome holds the failures of all of them.

## Main definitions

* `Run.DoneWith`: a task is done, and its failure is collected
* `Run.JoinedDone`: the tasks that are joined are done

## Main results

* `Run.joinedDone_step`: a step keeps the joined tasks done
* `Run.evaluate_cases`: the assertions are evaluated when all tasks are done
-/

namespace TakBench

variable {P : Platform} {config : AppConfig}

namespace Run

variable {r r' : Run} {act : RunAct}

/-- A task is done, and its failure is among the ones collected. -/
def DoneWith (failures : List ParticipantFailure) (task : Task) : Prop :=
  ∃ result, task.state.result? = some result ∧
    taskFailure task.participant.id result ⊆ failures

theorem DoneWith.mono {failures failures' : List ParticipantFailure} {task : Task}
    (h : DoneWith failures task) (hsub : failures ⊆ failures') : DoneWith failures' task := by
  obtain ⟨result, hresult, hfailure⟩ := h
  exact ⟨result, hresult, fun _ hmem => hsub (hfailure hmem)⟩

/-- A task that is done makes no step that undoes it. -/
theorem DoneWith.step {failures : List ParticipantFailure} {task : Task} {w : World}
    {a : ParticipantAct} {state : Participant} {effects log : List Effect}
    (h : DoneWith failures task)
    (hstep : task.state.step P task.participant config w a = some (state, effects)) :
    DoneWith failures { task with state, log } := by
  obtain ⟨result, hresult, hfailure⟩ := h
  exact ⟨result, Participant.result?_step hresult hstep, hfailure⟩

/-- The tasks that are joined are done, and all of them once the main task has returned. -/
def JoinedDone (r : Run) : Prop :=
  match r.main with
  | .joining failures joined => ∀ i ∈ joined, ∃ task,
      r.tasks[i]? = some task ∧ DoneWith failures task
  | .returned outcome => ∀ task ∈ r.tasks, DoneWith outcome.participantFailures task
  | _ => True

theorem joinedDone_step (hr : r.JoinedDone) (h : r.step P config act = some r') :
    r'.JoinedDone := by
  obtain ⟨world, stop, tasks, main⟩ := r
  cases act with
  | elapse d =>
    obtain rfl := Option.some.inj h
    exact hr
  | stop =>
    obtain rfl := Option.some.inj h
    exact hr
  | forward =>
    simp only [Run.step, Option.ite_none_right_eq_some, Option.some.injEq] at h
    obtain ⟨-, rfl⟩ := h
    exact hr
  | task i a =>
    simp only [Run.step] at h
    split at h
    · cases h
    · next task hget =>
      obtain ⟨⟨state, effects⟩, hstep, rfl⟩ := Option.map_eq_some_iff.mp h
      cases main with
      | joining failures joined =>
        intro j hj
        obtain ⟨other, hother, hdone⟩ := hr j hj
        by_cases hij : i = j
        · subst hij
          obtain rfl := Option.some.inj (hget.symm.trans hother)
          have hlt : i < tasks.length := (List.getElem?_eq_some_iff.mp hget).1
          exact ⟨_, List.getElem?_set_self hlt, hdone.step hstep⟩
        · exact ⟨other, (List.getElem?_set_ne hij).trans hother, hdone⟩
      | returned outcome =>
        intro other hother
        rcases List.mem_or_eq_of_mem_set hother with hother | rfl
        · exact hr other hother
        · exact DoneWith.step (hr task (List.mem_of_getElem? hget)) hstep
      | _ => trivial
  | barrier a =>
    cases main with
    | waiting barrier =>
      obtain ⟨barrier', -, rfl⟩ := Option.map_eq_some_iff.mp h
      cases barrier' with
      | returned result =>
        cases result with
        | timedOut => trivial
        | _ => exact fun i hi => absurd hi List.not_mem_nil
      | _ => trivial
    | _ => simp [Run.step] at h
  | missing =>
    cases main with
    | timedOut =>
      obtain rfl := Option.some.inj h
      exact fun i hi => absurd hi List.not_mem_nil
    | _ => simp [Run.step] at h
  | join i =>
    simp only [Run.step] at h
    split at h
    · next failures joined task hget =>
      split at h
      · next result hresult =>
        simp only [Option.ite_none_right_eq_some, Option.some.injEq] at h
        obtain ⟨-, rfl⟩ := h
        intro j hj
        rcases List.mem_cons.mp hj with rfl | hj
        · exact ⟨task, hget, result, hresult, List.subset_append_right _ _⟩
        · obtain ⟨other, hother, hdone⟩ := hr j hj
          exact ⟨other, hother, hdone.mono (List.subset_append_left _ _)⟩
      · cases h
    · cases h
  | evaluate =>
    cases main with
    | joining failures joined =>
      simp only [Run.step, Option.ite_none_right_eq_some, Option.some.injEq, List.all_eq_true,
        List.mem_range, decide_eq_true_eq] at h
      obtain ⟨hall, rfl⟩ := h
      -- every task is joined
      intro task htask
      obtain ⟨i, hi⟩ := List.mem_iff_getElem?.mp htask
      obtain ⟨other, hother, hdone⟩ := hr i (hall i (List.getElem?_eq_some_iff.mp hi).1)
      obtain rfl := Option.some.inj (hi.symm.trans hother)
      exact hdone
    | _ => simp [Run.step] at h

theorem joinedDone_spawn (delays : List Duration) (stop : Bool) :
    (Run.spawn config delays stop).JoinedDone := by
  rw [JoinedDone, Run.spawn, enterMain]
  split
  · next heq =>
    split at heq
    · obtain ⟨-, rfl⟩ := MainPhase.joining.inj heq
      exact fun i hi => absurd hi List.not_mem_nil
    · cases heq
  · next heq => split at heq <;> cases heq
  · trivial

/-- The assertions are evaluated when all tasks are done. -/
theorem evaluate_cases (hr : r.JoinedDone) (h : r.step P config .evaluate = some r') :
    (∀ task ∈ r.tasks, task.state.sender? = none) ∧ r'.tasks = r.tasks ∧ r'.world = r.world ∧
      ∃ failures, r'.main = .returned
        ⟨r.world.ledger.evaluateRouting config.scenario.routing, failures⟩ := by
  have hdone := joinedDone_step hr h
  obtain ⟨world, stop, tasks, main⟩ := r
  cases main with
  | joining failures joined =>
    simp only [Run.step, Option.ite_none_right_eq_some, Option.some.injEq] at h
    obtain ⟨-, rfl⟩ := h
    refine ⟨fun task htask => ?_, rfl, rfl, failures, rfl⟩
    obtain ⟨result, hresult, -⟩ := hdone task htask
    exact Participant.sender?_of_result hresult
  | _ => simp [Run.step] at h

end Run

end TakBench
