import TakBench.TimeRange

/-!
# Bounded backoff

The backoff before an attempt doubles from the smallest to the largest one, which the power and the
product reach by saturation and not by a wrap. It is clamped first and multiplied by the jitter
then, so the largest backoff is no bound on what is waited: the bound is kept exactly when the
largest factor of the jitter still has room above the backoff that the doubling ends with.

## Main definitions

* `IsFactor`: a factor in the range of the jitter
* `BoundedBackoff`: every backoff is in the bounds of the configuration
* `saturatedBackoff`: the backoff that does not grow any more
* `HasRoom`: the jitter cannot leave the bounds

## Main results

* `minBackoff_le_baseBackoff`, `baseBackoff_le_maxBackoff`: the bounds without jitter
* `boundedBackoff_iff`: the backoff of an accepted configuration
-/

namespace TakBench

variable {config : AppConfig}

/-- May the jitter draw the factor? -/
def IsFactor (config : AppConfig) (factor : ℚ) : Prop :=
  1 - jitter config ≤ factor ∧ factor ≤ 1 + jitter config

/-- Every attempt is backed off within the bounds, and without jitter later ones for longer. The
number of an attempt is below `2 ^ 32`. -/
structure BoundedBackoff (config : AppConfig) : Prop where
  le_max : ∀ attempt factor, 1 ≤ attempt → attempt < 2 ^ 32 → IsFactor config factor →
    ∃ delay, reconnectDelay config attempt factor = some delay ∧
      delay ≤ config.reconnect.maxBackoff
  min_le : config.reconnect.jitterPercent = 0 →
    ∀ attempt factor delay, 1 ≤ attempt → attempt < 2 ^ 32 → IsFactor config factor →
      reconnectDelay config attempt factor = some delay → config.reconnect.minBackoff ≤ delay
  mono : config.reconnect.jitterPercent = 0 →
    ∀ attempt later factor factor' delay delay', 1 ≤ attempt → attempt ≤ later →
      later < 2 ^ 32 → IsFactor config factor → IsFactor config factor' →
      reconnectDelay config attempt factor = some delay →
      reconnectDelay config later factor' = some delay' → delay ≤ delay'

/-- The backoff from the attempt on at which the multiplier is saturated. -/
def saturatedBackoff (config : AppConfig) : Duration := baseBackoff config 33

/-- There is no jitter, or its largest factor takes the saturated backoff at most half a nanosecond
over the largest one; the half is rounded down to an even number only. -/
def HasRoom (config : AppConfig) : Prop :=
  config.reconnect.jitterPercent = 0 ∨
  (1 + jitter config) * saturatedBackoff config < (config.reconnect.maxBackoff : ℕ) + 1 / 2 ∨
  (1 + jitter config) * saturatedBackoff config = (config.reconnect.maxBackoff : ℕ) + 1 / 2 ∧
    config.reconnect.maxBackoff % 2 = 0

/-! ## Without jitter -/

theorem reconnectDelay_of_steady {attempt : ℕ} {factor : ℚ}
    (hjitter : config.reconnect.jitterPercent = 0) :
    reconnectDelay config attempt factor = some (baseBackoff config attempt) := by
  have hzero : min config.reconnect.jitterPercent 100 = 0 := by omega
  simp only [reconnectDelay, if_pos hzero]
  rfl

theorem reconnectDelay_of_jitter {attempt : ℕ} {factor : ℚ}
    (hjitter : config.reconnect.jitterPercent ≠ 0) :
    reconnectDelay config attempt factor =
      Duration.mulF64 (baseBackoff config attempt) factor := by
  have hne : ¬ min config.reconnect.jitterPercent 100 = 0 := by omega
  simp only [reconnectDelay, if_neg hne]
  rfl

theorem baseBackoff_le_maxBackoff (attempt : ℕ) :
    baseBackoff config attempt ≤ config.reconnect.maxBackoff :=
  min_le_right _ _

/-- The multiplier does not grow once it is saturated. -/
theorem baseBackoff_le_saturatedBackoff (attempt : ℕ) :
    baseBackoff config attempt ≤ saturatedBackoff config := by
  have hmultiplier : min (2 ^ (attempt - 1)) (2 ^ 32 - 1) ≤ min (2 ^ (33 - 1)) (2 ^ 32 - 1) :=
    min_le_right _ _
  rw [saturatedBackoff, baseBackoff, baseBackoff, Duration.saturatingMul, Duration.saturatingMul]
  gcongr

/-- The multiplier is at least one, and neither it nor the product wraps. -/
theorem minBackoff_le_baseBackoff (attempt : ℕ)
    (hbounds : config.reconnect.minBackoff ≤ config.reconnect.maxBackoff)
    (hrange : config.reconnect.maxBackoff ≤ Duration.max) :
    config.reconnect.minBackoff ≤ baseBackoff config attempt := by
  have hmultiplier : 1 ≤ min (2 ^ (attempt - 1)) (2 ^ 32 - 1) :=
    le_min Nat.one_le_two_pow (by decide)
  refine le_min (le_min ?_ (hbounds.trans hrange)) hbounds
  exact Nat.le_mul_of_pos_right _ hmultiplier

/-- The bounds of an accepted configuration that reconnects. -/
theorem Accepted.minBackoff_le (h : Accepted config) (henabled : config.reconnect.enabled = true) :
    config.reconnect.minBackoff ≤ config.reconnect.maxBackoff := by
  have hbounds := h.bounds
  simp only [hasInvalidBounds, Bool.or_eq_false_iff, henabled, Bool.true_and,
    decide_eq_false_iff_not, Nat.not_lt] at hbounds
  exact hbounds.2.2

/-! ## The jitter -/

/-- A backoff is multiplied by the factor, and rounded. -/
theorem mulF64_le_iff {d bound : Duration} {factor : ℚ} (hfactor : 0 ≤ factor)
    (hrange : bound ≤ Duration.max) :
    (∃ delay, Duration.mulF64 d factor = some delay ∧ delay ≤ bound) ↔
      Rounding.halfEven (factor * d) ≤ bound := by
  have hnanos : factor * d.asSecsF64 * 1000000000 = factor * d := by
    rw [Duration.asSecsF64]
    ring
  have hnonneg : 0 ≤ factor * d.asSecsF64 := by
    rw [Duration.asSecsF64]
    positivity
  rw [Duration.mulF64, Duration.fromSecsF64_le_iff hnonneg hrange, hnanos]

/-- With jitter the bound is kept for all attempts exactly when it is kept for one with a saturated
backoff and the largest factor. -/
theorem delays_le_iff (hjitter : config.reconnect.jitterPercent ≠ 0)
    (hrange : config.reconnect.maxBackoff ≤ Duration.max) :
    (∀ attempt factor, 1 ≤ attempt → attempt < 2 ^ 32 → IsFactor config factor →
      ∃ delay, reconnectDelay config attempt factor = some delay ∧
        delay ≤ config.reconnect.maxBackoff) ↔
    Rounding.halfEven ((1 + jitter config) * saturatedBackoff config) ≤
      config.reconnect.maxBackoff := by
  have hnonneg : 0 ≤ jitter config := jitter_nonneg
  have hone : jitter config ≤ 1 := jitter_le_one
  simp only [reconnectDelay_of_jitter hjitter]
  constructor
  · intro h
    rw [← mulF64_le_iff (by linarith) hrange]
    exact h 33 _ (by decide) (by decide) ⟨by linarith, le_refl _⟩
  · rintro h attempt factor - - ⟨hlower, hupper⟩
    rw [mulF64_le_iff (by linarith) hrange]
    -- no attempt has a larger backoff, and the product grows with the factor
    have hbase : ((baseBackoff config attempt : ℕ) : ℚ) ≤ (saturatedBackoff config : ℕ) := by
      exact_mod_cast baseBackoff_le_saturatedBackoff attempt
    have hfactor : 0 ≤ factor := by linarith
    refine (Rounding.halfEven_mono (by positivity) ?_).trans h
    gcongr

/-- **The backoff of an accepted configuration** is bounded exactly when the jitter has room. -/
theorem boundedBackoff_iff (h : validateWorkload config = .ok ())
    (henabled : config.reconnect.enabled = true)
    (hrange : config.reconnect.maxBackoff ≤ Duration.max) :
    BoundedBackoff config ↔ HasRoom config := by
  have hbounds := (accepted_of_validateWorkload h).minBackoff_le henabled
  by_cases hjitter : config.reconnect.jitterPercent = 0
  -- without jitter the backoff is the base
  · refine iff_of_true ⟨?_, ?_, ?_⟩ (.inl hjitter)
    · intro attempt factor _ _ _
      exact ⟨_, reconnectDelay_of_steady hjitter, baseBackoff_le_maxBackoff attempt⟩
    · intro _ attempt factor delay _ _ _ hdelay
      rw [reconnectDelay_of_steady hjitter] at hdelay
      obtain rfl := Option.some.inj hdelay
      exact minBackoff_le_baseBackoff attempt hbounds hrange
    · intro _ attempt later factor factor' delay delay' _ hle _ _ _ hdelay hdelay'
      rw [reconnectDelay_of_steady hjitter] at hdelay hdelay'
      obtain rfl := Option.some.inj hdelay
      obtain rfl := Option.some.inj hdelay'
      exact baseBackoff_mono hle
  -- with jitter only the upper bound is asked for
  · have hnonneg : 0 ≤ (1 + jitter config) * (saturatedBackoff config : ℕ) :=
      mul_nonneg (add_nonneg zero_le_one jitter_nonneg) (Nat.cast_nonneg _)
    rw [HasRoom, or_iff_right hjitter, ← Rounding.halfEven_le_iff hnonneg,
      ← delays_le_iff hjitter hrange]
    exact ⟨fun hbounded => hbounded.le_max,
      fun hle => ⟨hle, fun hzero => absurd hzero hjitter, fun hzero => absurd hzero hjitter⟩⟩

/-! ## Backoff with and without jitter -/

/-- The default backoff, without jitter. -/
def steady : AppConfig where
  authorization := { acknowledged := true }
  reconnect := { enabled := true, jitterPercent := 0 }

/-- The default backoff, with its jitter of a fifth. -/
def jittered : AppConfig where
  authorization := { acknowledged := true }
  reconnect := { enabled := true }

/-- The backoff without jitter. -/
theorem boundedBackoff_iff_steady : BoundedBackoff steady :=
  (boundedBackoff_iff (by decide) rfl (by decide)).mpr (.inl rfl)

/-- The eighth attempt may be backed off for 36 seconds, where the largest backoff is 30. -/
theorem backoff_exceeds :
    validateWithOptions jittered {} = .ok () ∧
      jittered.reconnect.maxBackoff = Duration.fromSecs 30 ∧ IsFactor jittered (6 / 5) ∧
      reconnectDelay jittered 8 (6 / 5) = some (Duration.fromSecs 36) ∧
      ¬ BoundedBackoff jittered := by
  have hfactor : IsFactor jittered (6 / 5) := by
    constructor <;> norm_num [jitter, jittered]
  have hdelay : reconnectDelay jittered 8 (6 / 5) = some (Duration.fromSecs 36) := by decide +kernel
  refine ⟨by decide, rfl, hfactor, hdelay, fun hbounded => ?_⟩
  obtain ⟨delay, h, hle⟩ := hbounded.le_max 8 (6 / 5) (by decide) (by decide) hfactor
  rw [hdelay] at h
  obtain rfl := Option.some.inj h
  exact absurd hle (by decide)

end TakBench
