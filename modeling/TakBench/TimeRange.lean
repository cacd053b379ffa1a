import TakBench.Names

/-!
# Time arithmetic

Four times are computed from an accepted configuration without a check: the deadline of the run,
the deadline of the barrier, the emission interval and the backoff before a reconnect. The checks
bound the durations of a production run only, and they let an interval through that is exactly at
the limit. So the times are in range exactly when the durations are moderate.

## Main definitions

* `checkedAdd`: an instant of the monotonic clock and a duration
* `TimesInRange`: none of the four computations panics
* `Moderate`: bounds on the durations of a configuration

## Main results

* `isSome_emissionInterval_iff`, `isSome_reconnectDelay_iff`: one computation each
* `timesInRange_iff`: the times of an accepted configuration
-/

namespace TakBench

variable {config : AppConfig}

/-! ## The computations -/

/-- The nanoseconds from which on an instant is out of range: its seconds are a signed 64-bit
number. -/
def instantBound : ℤ := 2 ^ 63 * 1000000000

/-- `Instant + Duration`, in nanoseconds of the monotonic clock; `none` if it panics. -/
def checkedAdd (instant : ℤ) (d : Duration) : Option ℤ :=
  if instant + d < instantBound then some (instant + d) else none

/-- The deadline of the run, for a scenario that starts at an instant. -/
def runDeadline (config : AppConfig) (started : ℤ) : Option ℤ :=
  checkedAdd started config.run.duration

/-- The deadline of `ReadinessBarrier::new`. -/
def readinessDeadline (config : AppConfig) (started : ℤ) : Option ℤ :=
  checkedAdd started (config.synchronization.timeout.getD config.run.duration)

/-- The jitter of the backoff. -/
def jitter (config : AppConfig) : ℚ := (min config.reconnect.jitterPercent 100 : ℕ) / 100

theorem jitter_nonneg : 0 ≤ jitter config := by
  rw [jitter]
  positivity

theorem jitter_le_one : jitter config ≤ 1 := by
  rw [jitter, div_le_one (by norm_num)]
  exact_mod_cast Nat.min_le_right _ _

/-- May a participant draw the factor for this attempt to reconnect? -/
def Draws (config : AppConfig) (attempt : ℕ) (factor : ℚ) : Prop :=
  config.reconnect.enabled = true ∧ 1 ≤ attempt ∧ attempt ≤ config.reconnect.maxAttempts.toNat ∧
    1 - jitter config ≤ factor ∧ factor ≤ 1 + jitter config

/-- None of the computations panics, whatever the jitter draws. -/
structure TimesInRange (config : AppConfig) (started : ℤ) : Prop where
  runDeadline : (runDeadline config started).isSome = true
  readinessDeadline : (readinessDeadline config started).isSome = true
  emissionInterval : (emissionInterval config).isSome = true
  reconnectDelay : ∀ attempt factor, Draws config attempt factor →
    (reconnectDelay config attempt factor).isSome = true

/-! ## The bounds -/

/-- The backoff before an attempt, without jitter. -/
def baseBackoff (config : AppConfig) (attempt : ℕ) : Duration :=
  min (Duration.saturatingMul config.reconnect.minBackoff
    (min (2 ^ (attempt - 1)) (2 ^ 32 - 1))) config.reconnect.maxBackoff

/-- The durations are so small that no time is out of range. -/
structure Moderate (config : AppConfig) (started : ℤ) : Prop where
  duration : started + config.run.duration < instantBound
  timeout : ∀ timeout, config.synchronization.timeout = some timeout →
    started + timeout < instantBound
  rate : ∀ rate, config.run.maxRate = some (.finite rate) →
    1 / rate * 1000000000 + 1 / 2 < Duration.bound
  backoff : config.reconnect.enabled = true → 0 < config.reconnect.maxAttempts.toNat →
    0 < config.reconnect.jitterPercent →
    (1 + jitter config) * baseBackoff config config.reconnect.maxAttempts.toNat + 1 / 2 <
      (Duration.bound : ℕ)

theorem isSome_checkedAdd_iff {instant : ℤ} {d : Duration} :
    (checkedAdd instant d).isSome = true ↔ instant + d < instantBound := by
  rw [checkedAdd]
  split <;> simp_all

/-! ## The emission interval -/

/-- A rate that is accepted is a positive number. -/
theorem exists_of_isInvalidRate {rate : F64} (h : isInvalidRate rate = false) :
    ∃ q, rate = .finite q ∧ 0 < q := by
  cases rate with
  | finite q =>
    refine ⟨q, rfl, ?_⟩
    simp only [isInvalidRate, F64.le, F64.lt, Bool.or_eq_false_iff, Bool.not_eq_false',
      decide_eq_true_eq] at h
    exact h.1.1.2
  | _ => cases h

/-- The rate of an accepted configuration. -/
theorem Accepted.exists_rate (h : Accepted config) {rate : F64}
    (hrate : config.run.maxRate = some rate) : ∃ q, rate = .finite q ∧ 0 < q := by
  have hbounds := h.bounds
  simp only [hasInvalidBounds, Bool.or_eq_false_iff, hrate, Option.any_some] at hbounds
  exact exists_of_isInvalidRate hbounds.1.2

theorem Accepted.gpsInterval_pos (h : Accepted config) : 0 < config.run.gpsInterval := by
  have hbounds := h.bounds
  simp only [hasInvalidBounds, Bool.or_eq_false_iff, decide_eq_false_iff_not] at hbounds
  exact Nat.pos_of_ne_zero hbounds.1.1.1.1.1.1.1.2

/-- The interval of an accepted rate. -/
theorem isSome_emissionInterval_iff (h : Accepted config) :
    (emissionInterval config).isSome = true ↔
      ∀ rate, config.run.maxRate = some (.finite rate) →
        1 / rate * 1000000000 + 1 / 2 < Duration.bound := by
  rw [emissionInterval]
  cases hmax : config.run.maxRate with
  | none => simp
  | some rate =>
    obtain ⟨q, rfl, hpos⟩ := h.exists_rate hmax
    simp only [F64.recip, if_neg hpos.ne', Option.isSome_map]
    rw [Duration.isSome_fromSecsF64_iff (by positivity)]
    simp

/-! ## The backoff -/

/-- The backoff grows with the attempts. -/
theorem baseBackoff_mono {attempt later : ℕ} (h : attempt ≤ later) :
    baseBackoff config attempt ≤ baseBackoff config later := by
  rw [baseBackoff, baseBackoff, Duration.saturatingMul, Duration.saturatingMul]
  have hpower : 2 ^ (attempt - 1) ≤ 2 ^ (later - 1) :=
    Nat.pow_le_pow_right (by decide) (Nat.sub_le_sub_right h 1)
  gcongr

/-- The backoff before an attempt, with a factor that is not negative. -/
theorem isSome_reconnectDelay_iff {attempt : ℕ} {factor : ℚ} (hfactor : 0 ≤ factor)
    (hjitter : 0 < config.reconnect.jitterPercent) :
    (reconnectDelay config attempt factor).isSome = true ↔
      factor * baseBackoff config attempt + 1 / 2 < (Duration.bound : ℕ) := by
  have hne : ¬ min config.reconnect.jitterPercent 100 = 0 := by omega
  have hmul : (Duration.mulF64 (baseBackoff config attempt) factor).isSome = true ↔
      factor * baseBackoff config attempt + 1 / 2 < (Duration.bound : ℕ) := by
    rw [Duration.mulF64, Duration.asSecsF64, Duration.isSome_fromSecsF64_iff (by positivity)]
    ring_nf
  rw [← hmul, reconnectDelay]
  simp only [if_neg hne]
  rfl

/-- No backoff overflows exactly when the last one does not, with the largest factor. -/
theorem isSome_reconnectDelays_iff :
    (∀ attempt factor, Draws config attempt factor →
      (reconnectDelay config attempt factor).isSome = true) ↔
    (config.reconnect.enabled = true → 0 < config.reconnect.maxAttempts.toNat →
      0 < config.reconnect.jitterPercent →
      (1 + jitter config) * baseBackoff config config.reconnect.maxAttempts.toNat + 1 / 2 <
        (Duration.bound : ℕ)) := by
  have hpercent : jitter config ≤ 1 := jitter_le_one
  have hnonneg : 0 ≤ jitter config := jitter_nonneg
  constructor
  · -- the last attempt may draw the largest factor
    intro h henabled hattempts hjitter
    rw [← isSome_reconnectDelay_iff (by linarith) hjitter]
    exact h _ _ ⟨henabled, hattempts, Nat.le_refl _, by linarith, le_refl _⟩
  · rintro h attempt factor ⟨henabled, hone, hmax, hlower, hupper⟩
    by_cases hjitter : 0 < config.reconnect.jitterPercent
    · have hlast := h henabled (Nat.lt_of_lt_of_le hone hmax) hjitter
      have hbase : ((baseBackoff config attempt : ℕ) : ℚ) ≤
          (baseBackoff config config.reconnect.maxAttempts.toNat : ℕ) := by
        exact_mod_cast baseBackoff_mono hmax
      rw [isSome_reconnectDelay_iff (by linarith) hjitter]
      refine lt_of_le_of_lt ?_ hlast
      gcongr
    · -- without jitter the backoff is not multiplied
      have hzero : min config.reconnect.jitterPercent 100 = 0 := by omega
      simp [reconnectDelay, hzero]

/-! ## All four -/

/-- **The times of an accepted configuration** are in range exactly when its durations are
moderate. -/
theorem timesInRange_iff {options : SafetyOptions} {started : ℤ}
    (h : validateWithOptions config options = .ok ()) :
    TimesInRange config started ↔ Moderate config started := by
  have haccepted := accepted_of_validateWithOptions h
  constructor
  · intro hrange
    have hreadiness := isSome_checkedAdd_iff.mp hrange.readinessDeadline
    refine ⟨isSome_checkedAdd_iff.mp hrange.runDeadline, ?_,
      (isSome_emissionInterval_iff haccepted).mp hrange.emissionInterval,
      isSome_reconnectDelays_iff.mp hrange.reconnectDelay⟩
    intro timeout htimeout
    rwa [htimeout] at hreadiness
  · intro hmoderate
    refine ⟨isSome_checkedAdd_iff.mpr hmoderate.duration, isSome_checkedAdd_iff.mpr ?_,
      (isSome_emissionInterval_iff haccepted).mpr hmoderate.rate,
      isSome_reconnectDelays_iff.mpr hmoderate.backoff⟩
    cases htimeout : config.synchronization.timeout with
    | none => exact hmoderate.duration
    | some timeout => exact hmoderate.timeout timeout htimeout

/-! ## Durations at the limit -/

/-- A run without end, with the lowest rate and the longest backoff that are accepted. -/
def endless : AppConfig where
  authorization := { acknowledged := true }
  run :=
    { duration := Duration.fromSecs (2 ^ 64 - 1)
      maxRate := some (.finite (1 / 2 ^ 64)) }
  reconnect :=
    { enabled := true
      minBackoff := Duration.fromSecs (2 ^ 64 - 1)
      maxBackoff := Duration.fromSecs (2 ^ 64 - 1) }

/-- The defaults are moderate for a while. -/
theorem timesInRange_iff_default :
    TimesInRange { authorization := { acknowledged := true } } 0 := by
  have haccepted :
      validateWithOptions { authorization := { acknowledged := true } } {} = .ok () := by
    decide
  refine (timesInRange_iff haccepted).mpr ⟨by decide, ?_, ?_, ?_⟩
  · intro timeout h
    cases h
  · intro rate h
    cases h
  · intro h
    cases h

/-- An accepted configuration whose deadline, emission interval and backoff all panic. -/
theorem times_out_of_range :
    validateWithOptions endless {} = .ok () ∧ runDeadline endless 0 = none ∧
      emissionInterval endless = none ∧ Draws endless 1 (6 / 5) ∧
      reconnectDelay endless 1 (6 / 5) = none := by
  refine ⟨by decide +kernel, by decide +kernel, by decide +kernel, ?_, by decide +kernel⟩
  refine ⟨rfl, by decide, by decide, ?_, ?_⟩
  · norm_num [jitter, endless]
  · norm_num [jitter, endless]

end TakBench
