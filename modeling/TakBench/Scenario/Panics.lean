import TakBench.Scenario.Outcome
import TakBench.TimeRange

/-!
# Tasks that panic

A task of a participant computes two times that may be out of range: the emission interval, when
the barrier opens for its sender, and the backoff, when it decides to dial again. So a task has
panicked exactly if a step has computed one of them out of range, no task panics with moderate
durations, and a failure of the participant `unknown` is reported exactly for a panic. The calendar
has no last year here: the time at which an event is stale does not overflow.

## Main definitions

* `Session.Computes`, `Participant.Computes`, `Run.Computes`: a step computes its times in range
* `Run.Panicked`: a task has panicked

## Main results

* `Participant.panicked_step_iff`: which steps panic
* `Run.panics_iff`: which runs panic
-/

namespace TakBench

variable {P : Platform} {participant : ParticipantConfig} {config : AppConfig} {w : World}
  {out : List Effect}

/-! ## A session -/

namespace Session

variable {session session' : Session} {act : SessionAct}

/-- The emission interval is computed in range where it is computed, by the check that finds the
barrier open. -/
def Computes (config : AppConfig) (w : World) : Session → SessionAct → Prop
  | .waiting .checking _, .barrier .check =>
    isReady config w.ready = true → (emissionInterval config).isSome = true
  | _, _ => True

/-- Nothing is computed but by a check. -/
theorem computes_of_ne (hact : act ≠ .barrier .check) : session.Computes config w act := by
  unfold Computes
  split
  · exact absurd rfl hact
  · trivial

/-- Has the session panicked? -/
def isPanicked : Session → Bool
  | .panicked _ => true
  | _ => false

theorem isPanicked_afterReader (reader : Reader) : (afterReader reader).isPanicked = false := by
  rw [afterReader]
  split <;> rfl

theorem isPanicked_enter : (enter participant config w).isPanicked = false := by
  rw [enter]
  split
  · exact isPanicked_afterReader _
  · rfl
  · rfl

theorem isPanicked_start : (start participant config w).isPanicked = false := by
  rw [start]
  split
  · split <;> rfl
  · exact isPanicked_enter

theorem isPanicked_close (result : Except Failure Unit) (reader : Option Reader) :
    (close result reader).isPanicked = false := by
  cases reader <;> rfl

theorem isPanicked_afterSender (reader : Option Reader) (sender : Sender) :
    (afterSender reader sender).isPanicked = false := by
  rw [afterSender]
  split
  · exact isPanicked_close _ _
  · rfl

/-- The reader of a session does not change whether it has panicked. -/
theorem isPanicked_putReader {reader : Reader} (reader' : Reader)
    (halive : session.reader? = some reader) :
    (session.putReader reader').isPanicked = session.isPanicked := by
  cases session with
  | receiving _ => exact isPanicked_afterReader _
  | waiting | sending | joining | panicked => rfl
  | slowConnecting | returned => cases halive

/-- A sender of an accepted configuration starts unless its interval is out of range. -/
theorem isPanicked_openSender (haccepted : Accepted config) (reader : Option Reader) :
    (openSender config w reader).isPanicked = true ↔ ¬ (emissionInterval config).isSome = true := by
  rw [openSender]
  split
  · next hnone => simp [hnone, isPanicked]
  · next hzero =>
    -- the period of an accepted configuration is not zero
    have hpos := Nat.lt_of_lt_of_le haccepted.gpsInterval_pos
      (gpsInterval_le_emissionInterval hzero)
    exact absurd hpos (Nat.lt_irrefl _)
  · next interval _ hinterval => simp [hinterval, isPanicked]

/-- **Which steps of a session panic.** -/
theorem isPanicked_step_iff (haccepted : Accepted config)
    (h : session.step P participant config w act = some (session', out)) :
    session'.isPanicked = true ↔
      session.isPanicked = true ∨ ¬ session.Computes config w act := by
  have hnot : ∀ {before after : Session}, before.isPanicked = false → after.isPanicked = false →
      before.Computes config w act → (after.isPanicked = true ↔
        before.isPanicked = true ∨ ¬ before.Computes config w act) := by
    intro before after hbefore hafter hcomputes
    simp [hbefore, hafter, hcomputes]
  cases steps_of_step h with
  | enter endsAt hdue => exact hnot rfl isPanicked_enter trivial
  | delayCut endsAt hover => exact hnot rfl rfl trivial
  | sender sender sender' reader a out hsender =>
    exact hnot rfl (isPanicked_afterSender _ _) trivial
  | reader session reader reader' a out halive hreader =>
    have hcomputes : session.Computes config w (.reader a) := computes_of_ne (by simp)
    rw [isPanicked_putReader _ halive]
    exact (or_iff_left (not_not.mpr hcomputes)).symm
  | readerDone sender reader result hphase => exact hnot rfl rfl trivial
  | readerJoined reader result => exact hnot rfl rfl trivial
  | barrier barrier barrier' reader a hbarrier =>
    cases a with
    | check =>
      cases barrier with
      | checking =>
        obtain rfl := Option.some.inj hbarrier
        by_cases hready : isReady config w.ready = true
        · simp only [hready, if_true, afterBarrier, Computes, forall_const]
          rw [isPanicked_openSender haccepted]
          exact (or_iff_right Bool.false_ne_true).symm
        · simp [hready, afterBarrier, Computes, isPanicked]
      | unarmed | armed | returned => cases hbarrier
    | arm | notified | stopped | deadline =>
      refine hnot rfl ?_ (computes_of_ne (by simp))
      -- only the check finds the barrier open
      cases barrier' with
      | returned result =>
        cases result with
        | ready => cases barrier <;> simp [BarrierPhase.step] at hbarrier
        | timedOut | stopped => exact isPanicked_close _ _
      | checking | unarmed | armed => rfl

end Session

/-! ## A participant -/

namespace Participant

variable {p p' : Participant} {act : ParticipantAct}

/-- The emission interval and the backoff are computed in range where they are computed. -/
def Computes (config : AppConfig) (w : World) (p : Participant) : ParticipantAct → Prop
  | .session act => ∀ session, p.phase = .connected session → session.Computes config w act
  | .retry factor => p.attempt < config.reconnect.maxAttempts.toNat →
    (reconnectDelay config (p.attempt + 1) factor).isSome = true
  | _ => True

/-- Has the participant panicked? -/
def isPanicked (p : Participant) : Bool :=
  match p.phase with
  | .panicked => true
  | .connected session => session.isPanicked
  | _ => false

/-- The task of a participant that has panicked is done, with no result. -/
theorem isPanicked_iff : p.isPanicked = true ↔ p.result? = some none := by
  obtain ⟨phase, attempt, recoveryStarted⟩ := p
  cases phase with
  | connected session => cases session <;> simp [isPanicked, Session.isPanicked, result?]
  | _ => simp [isPanicked, result?]

theorem isPanicked_enter : (enter participant config w).isPanicked = false := by
  rw [enter]
  split <;> rfl

theorem isPanicked_afterSession (result : Except Failure Unit) :
    (p.goto (afterSession config w result)).isPanicked = false := by
  cases result with
  | ok _ => rfl
  | error failure =>
    rw [afterSession]
    split <;> rfl

/-- A retry panics if there is an attempt left and its backoff is out of range. -/
theorem isPanicked_retry (failure : Failure) (factor : ℚ) :
    (p.retry config w failure factor).isPanicked = true ↔
      ¬ p.Computes config w (.retry factor) := by
  rw [Computes, Classical.not_imp, retry]
  split
  · next hmax => exact iff_of_false Bool.false_ne_true fun h => absurd h.1 (Nat.not_lt.mpr hmax)
  · next hmax =>
    rw [and_iff_right (Nat.lt_of_not_le hmax), backOff]
    split
    · next hnone => simp [hnone, isPanicked]
    · next delay hdelay =>
      rw [hdelay]
      split <;> simp [isPanicked, cutBackoff]

/-- **Which steps of a participant panic.** -/
theorem panicked_step_iff (haccepted : Accepted config)
    (h : p.step P participant config w act = some (p', out)) :
    p'.isPanicked = true ↔ p.isPanicked = true ∨ ¬ p.Computes config w act := by
  have hcalm : ∀ {phase : ParticipantPhase}, p.phase = phase →
      (Participant.mk phase p.attempt p.recoveryStarted).isPanicked = false →
      p.isPanicked = false := by
    rintro phase rfl hphase
    exact hphase
  have hnot : p.isPanicked = false → p'.isPanicked = false → p.Computes config w act →
      (p'.isPanicked = true ↔ p.isPanicked = true ∨ ¬ p.Computes config w act) := by
    intro hbefore hafter hcomputes
    simp [hbefore, hafter, hcomputes]
  cases steps_of_step h with
  | startOver _ hphase | ramp _ _ hphase | rampCut _ hphase | backoffCut _ _ hphase
  | redial _ _ hphase | leave hphase | dial hphase | connect _ hphase | reconnect _ hphase
  | openRequired _ hphase | connectRetried _ _ hphase | connectFails _ _ hphase | dialStopped hphase
  | dialDeadline hphase | marked hphase => exact hnot (hcalm hphase rfl) rfl trivial
  | enter _ hphase => exact hnot (hcalm hphase rfl) isPanicked_enter trivial
  | openSession _ hphase | notified hphase =>
    exact hnot (hcalm hphase rfl) Session.isPanicked_start trivial
  | sessionOver result hphase =>
    exact hnot (hcalm hphase rfl) (isPanicked_afterSession result) trivial
  | session session session' a out hphase hsession =>
    have hstep := Session.isPanicked_step_iff haccepted hsession
    have hcomputes : p.Computes config w (.session a) ↔ session.Computes config w a := by
      simp [Computes, hphase]
    rw [hcomputes]
    simpa only [isPanicked, goto, hphase] using hstep
  | retry factor failure hphase hjitter =>
    rw [isPanicked_retry]
    exact (or_iff_right (hcalm hphase rfl ▸ Bool.false_ne_true)).symm

/-! ### Moderate durations -/

/-- A participant retries only if reconnects are enabled. -/
def RetriesEnabled (config : AppConfig) (p : Participant) : Prop :=
  ∀ failure, p.phase = .retrying failure → config.reconnect.enabled = true

theorem RetriesEnabled.step (h : p.step P participant config w act = some (p', out)) :
    p'.RetriesEnabled config := by
  intro failure hphase'
  cases steps_of_step h with
  | connectRetried _ _ _ henabled => exact henabled
  | enter =>
    rw [Participant.enter] at hphase'
    split at hphase' <;> cases hphase'
  | sessionOver result =>
    cases result with
    | ok _ => cases hphase'
    | error error =>
      simp only [goto, afterSession] at hphase'
      split at hphase'
      · cases hphase'
      · next hcontinue =>
        simp only [Bool.or_eq_true, Bool.not_eq_true', not_or, Bool.not_eq_false] at hcontinue
        exact hcontinue.1
  | retry =>
    rw [Participant.retry] at hphase'
    split at hphase'
    · cases hphase'
    · simp only [backOff] at hphase'
      split at hphase'
      · cases hphase'
      · split at hphase' <;> cases hphase'
  | _ => cases hphase'

/-- With moderate durations a step computes its times in range. -/
theorem computes_of_moderate {started : ℤ} (haccepted : Accepted config)
    (hmoderate : Moderate config started) (henabled : p.RetriesEnabled config)
    (h : p.step P participant config w act = some (p', out)) : p.Computes config w act := by
  cases steps_of_step h with
  | session session session' a out hphase hsession =>
    intro other _
    have hinterval := (isSome_emissionInterval_iff haccepted).mpr hmoderate.rate
    unfold Session.Computes
    split
    · exact fun _ => hinterval
    · trivial
  | retry factor failure hphase hjitter =>
    intro hattempt
    simp only [isJitter, Bool.and_eq_true, decide_eq_true_eq] at hjitter
    exact isSome_reconnectDelays_iff.mpr hmoderate.backoff _ _
      ⟨henabled failure hphase, Nat.le_add_left _ _, hattempt, hjitter.1, hjitter.2⟩
  | _ => trivial

end Participant

/-! ## A run -/

namespace Run

variable {r r' r₀ : Run} {act : RunAct} {acts : List RunAct}

/-- A step of a task computes its times in range. -/
def Computes (config : AppConfig) (r : Run) : RunAct → Prop
  | .task i act => ∀ task, r.tasks[i]? = some task → task.state.Computes config r.world act
  | _ => True

/-- Has a task panicked? -/
def Panicked (r : Run) : Prop := ∃ task ∈ r.tasks, task.state.result? = some none

/-- **Which steps of a run panic.** -/
theorem panicked_step_iff (haccepted : Accepted config) (h : r.step P config act = some r') :
    r'.Panicked ↔ r.Panicked ∨ ¬ r.Computes config act := by
  rcases step_cases h with ⟨i, a, task, state, effects, rfl, hget, htaskStep, rfl⟩ | ⟨hact, hidle⟩
  · have hlt : i < r.tasks.length := (List.getElem?_eq_some_iff.mp hget).1
    have hstep := Participant.panicked_step_iff haccepted htaskStep
    rw [Participant.isPanicked_iff, Participant.isPanicked_iff] at hstep
    have hcomputes : r.Computes config (.task i a) ↔ task.state.Computes config r.world a := by
      simp [Computes, hget]
    rw [hcomputes]
    constructor
    · rintro ⟨other, hother, hpanic⟩
      rcases List.mem_or_eq_of_mem_set hother with hother | rfl
      · exact .inl ⟨other, hother, hpanic⟩
      · exact (hstep.mp hpanic).imp_left fun hbefore => ⟨task, List.mem_of_getElem? hget, hbefore⟩
    · -- the task that steps has panicked, or another one that it leaves alone
      have hself : state.result? = some none → (r.advance i task state effects).Panicked :=
        fun hpanic => ⟨_, List.mem_set hlt _, hpanic⟩
      rintro (⟨other, hother, hpanic⟩ | hviolated)
      · obtain ⟨j, hj⟩ := List.mem_iff_getElem?.mp hother
        by_cases hij : i = j
        · subst hij
          obtain rfl := Option.some.inj (hget.symm.trans hj)
          exact hself (hstep.mpr (.inl hpanic))
        · refine ⟨other, List.mem_of_getElem? (i := j) ?_, hpanic⟩
          rw [advance, List.getElem?_set_ne hij, hj]
      · exact hself (hstep.mpr (.inr hviolated))
  · have hcomputes : r.Computes config act := by
      cases act with
      | task i a => exact absurd rfl (hact i a)
      | _ => trivial
    rw [Panicked, hidle.tasks]
    exact (or_iff_left (not_not.mpr hcomputes)).symm

/-- With moderate durations no task panics. -/
theorem calm_invariant {started : ℤ} (haccepted : Accepted config)
    (hmoderate : Moderate config started) :
    TaskInvariant P config fun _ task =>
      task.state.isPanicked = false ∧ task.state.RetriesEnabled config where
  spawn _ _ _ _ := ⟨rfl, fun _ hphase => (by cases hphase)⟩
  later _ _ _ _ _ htask := htask
  step w task act state effects htask hstep := by
    obtain ⟨hcalm, henabled⟩ := htask
    refine ⟨?_, Participant.RetriesEnabled.step hstep⟩
    rw [← Bool.not_eq_true, Participant.panicked_step_iff haccepted hstep, hcalm]
    have hcomputes := Participant.computes_of_moderate haccepted hmoderate henabled hstep
    rintro (hpanic | hviolated)
    · cases hpanic
    · exact hviolated hcomputes

namespace Sparse

/-- An event every 2 ^ 64 seconds. -/
def sparse : AppConfig where
  authorization := { acknowledged := true }
  run := { maxRate := some (.finite (1 / 2 ^ 64)) }

/-- The participant connects, the barrier is open, and the interval is out of range. -/
def panicking : List RunAct :=
  [.task 0 .start, .task 0 .delayOver, .task 0 .enterLoop, .task 0 (.connected 0),
    .task 0 .sampled, .task 0 (.session (.barrier .check)), .join 0, .evaluate]

/-- Is a failure of `unknown` reported? -/
def reportsUnknown (r : Run) : Bool :=
  match r.main with
  | .returned outcome => outcome.participantFailures.any fun failure =>
    failure.participant = "unknown"
  | _ => false

theorem start_sparse : start sparse 0 (fun _ => id) {} false = .ok (spawn sparse [0] false) := by
  have hvalid : validateWithOptions sparse {} = .ok () := by decide +kernel
  exact start_of_accepted hvalid (by decide) (by decide) (by decide) rfl

end Sparse

open Sparse (sparse)

end Run

end TakBench
