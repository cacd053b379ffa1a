import Mathlib.Data.List.Dedup
import TakBench.Config
import TakBench.Scenario.World

/-!
# The readiness barrier

A waiter of the barrier checks whether all required participants are ready and otherwise waits for
a notification, the stop signal or the deadline of the barrier. It registers for a notification
only after the check, so a notification in between is lost.

## Main definitions

* `isReady`, `missing`: the participants the barrier still waits for
* `BarrierPhase`, `BarrierPhase.step`: `ReadinessBarrier::wait`
-/

namespace TakBench

variable (config : AppConfig)

/-- The deadline of the barrier. -/
def barrierDeadline : Instant := config.synchronization.timeout.getD config.run.duration

/-- Are all required participants ready? -/
def isReady (ready : List String) : Bool :=
  config.synchronization.waitForReady.all fun participant => participant ∈ ready

/-- `ReadinessBarrier::missing`. -/
def missing (ready : List String) : List String :=
  (config.synchronization.waitForReady.dedup.filter
    fun participant => participant ∉ ready).mergeSort

inductive BarrierResult where
  | ready
  | timedOut
  | stopped
  deriving DecidableEq

inductive BarrierPhase where
  /-- waiting for the lock of the ready set -/
  | checking
  /-- checked, and not yet registered for a notification -/
  | unarmed
  /-- registered after this many notifications -/
  | armed (notifications : ℕ)
  | returned (result : BarrierResult)
  deriving DecidableEq

/-- What a waiter sees. -/
inductive BarrierAct where
  | check
  | arm
  | notified
  | stopped
  | deadline
  deriving DecidableEq

/-- A step of `ReadinessBarrier::wait`. -/
def BarrierPhase.step (w : World) (phase : BarrierPhase) : BarrierAct → Option BarrierPhase
  | .check =>
    match phase with
    | .checking => some (if isReady config w.ready then .returned .ready else .unarmed)
    | _ => none
  | .arm =>
    match phase with
    | .unarmed => some (.armed w.notifications)
    | _ => none
  | .notified =>
    match phase with
    | .armed seen => if seen < w.notifications then some .checking else none
    | _ => none
  | .stopped =>
    match phase with
    | .armed _ => if w.stop then some (.returned .stopped) else none
    | _ => none
  | .deadline =>
    match phase with
    | .armed _ => if barrierDeadline config ≤ w.now then some (.returned .timedOut) else none
    | _ => none

variable {config}

theorem isReady_iff {ready : List String} :
    isReady config ready = true ↔
      ∀ participant ∈ config.synchronization.waitForReady, participant ∈ ready := by
  simp [isReady]

theorem isReady_mono {ready ready' : List String} (hsub : ready ⊆ ready')
    (h : isReady config ready = true) : isReady config ready' = true :=
  isReady_iff.mpr fun id hid => hsub (isReady_iff.mp h id hid)

/-- Nobody is missing exactly when all are ready. -/
theorem missing_eq_nil_iff {ready : List String} :
    missing config ready = [] ↔ isReady config ready = true := by
  rw [isReady_iff, ← List.length_eq_zero_iff, missing, List.length_mergeSort,
    List.length_eq_zero_iff, List.filter_eq_nil_iff]
  simp

/-- A waiter finds the barrier open only when all are ready. -/
theorem BarrierPhase.step_ready {w : World} {phase : BarrierPhase} {act : BarrierAct}
    (h : phase.step config w act = some (.returned .ready)) : isReady config w.ready = true := by
  cases act with
  | check =>
    cases phase with
    | checking =>
      by_contra hready
      simp [step, hready] at h
    | _ => simp [step] at h
  | _ => cases phase <;> simp [step] at h

/-- A waiter reports a timeout when it has registered and the deadline has passed. -/
theorem BarrierPhase.step_timedOut {w : World} {phase : BarrierPhase} {act : BarrierAct}
    (h : phase.step config w act = some (.returned .timedOut)) :
    act = .deadline ∧ (∃ seen, phase = .armed seen) ∧ barrierDeadline config ≤ w.now := by
  cases act with
  | deadline =>
    cases phase with
    | armed seen =>
      simp only [step, Option.ite_none_right_eq_some] at h
      exact ⟨rfl, ⟨seen, rfl⟩, h.1⟩
    | _ => simp [step] at h
  | check =>
    cases phase with
    | checking =>
      simp only [step, Option.some.injEq] at h
      split at h <;> cases h
    | _ => simp [step] at h
  | arm | notified | stopped => cases phase <;> simp [step] at h

/-- A waiter is stopped only by the stop signal. -/
theorem BarrierPhase.step_stopped {w : World} {phase : BarrierPhase} {act : BarrierAct}
    (h : phase.step config w act = some (.returned .stopped)) : w.stop = true := by
  cases act with
  | stopped =>
    cases phase with
    | armed seen =>
      simp only [step, Option.ite_none_right_eq_some] at h
      exact h.1
    | _ => simp [step] at h
  | check =>
    cases phase with
    | checking =>
      simp only [step, Option.some.injEq] at h
      split at h <;> cases h
    | _ => simp [step] at h
  | arm | notified | deadline => cases phase <;> simp [step] at h

end TakBench
