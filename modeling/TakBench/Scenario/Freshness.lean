import TakBench.Scenario.Sender
import TakBench.TimeRange

/-!
# How long a position stays fresh

A position is stale after twice the whole seconds of the GPS interval. The sender emits at the
emission interval, which is longer if a rate is set that is lower, and which has fractions of a
second. So a position stays fresh until the second update after it only if the GPS interval is in
whole seconds and no rate makes the sender any slower; and only if the seconds can be doubled.

## Main definitions

* `minimumStaleInterval`
* `StaysFresh`: no position is stale before two emission intervals have passed
* `IsPunctual`: what the configuration has to be like

## Main results

* `staysFresh_iff`: the accepted configurations whose positions stay fresh
-/

namespace TakBench

variable {config : AppConfig}

/-- `minimum_stale_interval`. -/
def minimumStaleInterval (interval : Duration) : Duration := Duration.saturatingMul interval 2

/-- There is an emission interval, and no position is stale before two of them have passed. -/
def StaysFresh (config : AppConfig) : Prop :=
  ∃ interval, emissionInterval config = some interval ∧ ∀ participant now id,
    (minimumStaleInterval interval : ℕ) ≤
      (positionEvent participant config now id).stale -
        (positionEvent participant config now id).time

/-- The GPS interval is in whole seconds, which can be doubled, and no rate calls for a longer one,
up to the half of a nanosecond that is rounded away. -/
structure IsPunctual (config : AppConfig) : Prop where
  whole : Duration.fromSecs config.run.gpsInterval.asSecs = config.run.gpsInterval
  doubled : config.run.gpsInterval.asSecs < 2 ^ 62
  rate : ∀ rate, config.run.maxRate = some (.finite rate) →
    1 / rate * 1000000000 ≤ (config.run.gpsInterval : ℕ) + 1 / 2

/-! ## The interval -/

section Interval

variable {interval secs gpsInterval : ℕ}

/-- Twice the interval is at most twice the seconds, if doubling the seconds does not saturate. -/
theorem minimumStaleInterval_le_iff (h : secs < 2 ^ 62) :
    minimumStaleInterval interval ≤ 2 * Duration.fromSecs secs ↔
      interval ≤ Duration.fromSecs secs := by
  change min (interval * 2) (2 ^ 64 * 1000000000 - 1) ≤ 2 * (secs * 1000000000) ↔
    interval ≤ secs * 1000000000
  omega

theorem lt_minimumStaleInterval (h : 2 ^ 62 ≤ Duration.asSecs gpsInterval)
    (hle : gpsInterval ≤ interval) : 60000000000 < minimumStaleInterval interval := by
  change 2 ^ 62 ≤ gpsInterval / 1000000000 at h
  change 60000000000 < min (interval * 2) (2 ^ 64 * 1000000000 - 1)
  omega

theorem fromSecs_le_max (h : secs < 2 ^ 62) : Duration.fromSecs secs ≤ Duration.max := by
  change secs * 1000000000 ≤ 2 ^ 64 * 1000000000 - 1
  omega

theorem fromSecs_even : Duration.fromSecs secs % 2 = 0 := by
  change secs * 1000000000 % 2 = 0
  omega

end Interval

/-- The emission interval is at most a number of seconds if the GPS interval and that of the rate
are, the latter up to what is rounded away. -/
theorem emissionInterval_le_iff (h : Accepted config) {secs : ℕ} (hsecs : secs < 2 ^ 62) :
    (∃ interval, emissionInterval config = some interval ∧ interval ≤ Duration.fromSecs secs) ↔
      config.run.gpsInterval ≤ Duration.fromSecs secs ∧
        ∀ rate, config.run.maxRate = some (.finite rate) →
          1 / rate * 1000000000 ≤ (Duration.fromSecs secs : ℕ) + 1 / 2 := by
  rw [emissionInterval]
  cases hmax : config.run.maxRate with
  | none => simp
  | some rate =>
    obtain ⟨q, rfl, hpos⟩ := h.exists_rate hmax
    have hnonneg : 0 ≤ 1 / q := by positivity
    -- the half of a nanosecond is rounded down, to an even number
    have hrounded : Rounding.halfEven (1 / q * 1000000000) ≤ Duration.fromSecs secs ↔
        1 / q * 1000000000 ≤ (Duration.fromSecs secs : ℕ) + 1 / 2 := by
      rw [Rounding.halfEven_le_iff (by positivity), le_iff_lt_or_eq,
        and_iff_left fromSecs_even]
    simp only [F64.recip, if_neg hpos.ne', Option.map_eq_some_iff, Option.some.injEq,
      F64.finite.injEq, forall_eq']
    rw [← hrounded, ← Duration.fromSecsF64_le_iff hnonneg (fromSecs_le_max hsecs)]
    constructor
    · rintro ⟨interval, ⟨converted, hconverted, rfl⟩, hle⟩
      exact ⟨(le_max_left _ _).trans hle, converted, hconverted, (le_max_right _ _).trans hle⟩
    · rintro ⟨hgps, converted, hconverted, hle⟩
      exact ⟨_, ⟨converted, hconverted, rfl⟩, max_le hgps hle⟩

/-! ## The offset -/

section Offset

variable (participant : ParticipantConfig) (now : OffsetDateTime) (id : Uuid)

/-- Seconds that can be doubled are. -/
theorem stale_sub_time (h : config.run.gpsInterval.asSecs < 2 ^ 62) :
    (positionEvent participant config now id).stale -
        (positionEvent participant config now id).time =
      (2 * Duration.fromSecs config.run.gpsInterval.asSecs : ℕ) := by
  rw [positionEvent]
  generalize config.run.gpsInterval.asSecs = secs at h
  have hsmall : secs < 2 ^ 63 := h.trans (by decide)
  have hproduct : ((secs : ℤ) * 2).bmod (2 ^ 64) = (secs : ℤ) * 2 :=
    Int.bmod_eq_of_le_mul_two (by omega) (by omega)
  simp only [if_pos hsmall, hproduct, Duration.fromSecs, add_sub_cancel_left]
  push_cast
  ring

/-- Other seconds wrap, or 30 are taken for them. -/
theorem stale_sub_time_le (h : 2 ^ 62 ≤ config.run.gpsInterval.asSecs) :
    (positionEvent participant config now id).stale -
        (positionEvent participant config now id).time ≤ 60000000000 := by
  rw [positionEvent]
  generalize config.run.gpsInterval.asSecs = secs at h
  have hsecs : ((if secs < 2 ^ 63 then secs else 30 : ℤ) * 2).bmod (2 ^ 64) ≤ 60 := by
    split
    · rw [Int.bmod_def]
      split <;> omega
    · decide
  simp only [add_sub_cancel_left]
  exact Int.mul_le_mul_of_nonneg_right hsecs (by decide)

end Offset

/-! ## Freshness -/

/-- **The positions of an accepted configuration** stay fresh exactly when it is punctual. -/
theorem staysFresh_iff (h : validateWorkload config = .ok ()) :
    StaysFresh config ↔ IsPunctual config := by
  rcases Nat.lt_or_ge config.run.gpsInterval.asSecs (2 ^ 62) with hsmall | hlarge
  · have hfresh : StaysFresh config ↔ ∃ interval, emissionInterval config = some interval ∧
        interval ≤ Duration.fromSecs config.run.gpsInterval.asSecs := by
      simp only [StaysFresh, stale_sub_time _ _ _ hsmall, Nat.cast_le,
        minimumStaleInterval_le_iff hsmall]
      exact exists_congr fun interval => and_congr_right fun _ =>
        ⟨fun hle => hle {} 0 0, fun hle _ _ _ => hle⟩
    have hfloor : Duration.fromSecs config.run.gpsInterval.asSecs ≤ config.run.gpsInterval :=
      Nat.div_mul_le_self _ _
    rw [hfresh, emissionInterval_le_iff (accepted_of_validateWorkload h) hsmall]
    constructor
    · rintro ⟨hgps, hrate⟩
      have hwhole := Nat.le_antisymm hfloor hgps
      rw [hwhole] at hrate
      exact ⟨hwhole, hsmall, hrate⟩
    · rintro ⟨hwhole, -, hrate⟩
      rw [hwhole]
      exact ⟨Nat.le_refl _, hrate⟩
  · -- the offset is at most a minute, where the GPS interval has more than that
    refine iff_of_false ?_ fun hpunctual => absurd hpunctual.doubled (Nat.not_lt.mpr hlarge)
    rintro ⟨interval, hinterval, hle⟩
    have hlong := lt_minimumStaleInterval hlarge (gpsInterval_le_emissionInterval hinterval)
    have hshort := (hle {} 0 0).trans (stale_sub_time_le _ _ _ hlarge)
    exact absurd (by exact_mod_cast hshort) (Nat.not_le.mpr hlong)

/-! ## Intervals that are too long -/

/-- A position every hundred seconds at most. -/
def rare : AppConfig where
  authorization := { acknowledged := true }
  run := { maxRate := some (.finite (1 / 100)) }

/-- The positions of the defaults stay fresh. -/
theorem staysFresh_iff_default : StaysFresh { authorization := { acknowledged := true } } := by
  refine (staysFresh_iff (by decide)).mpr ⟨by decide, by decide, ?_⟩
  intro rate h
  cases h

/-- A position is emitted every hundred seconds, and stale after sixty. -/
theorem position_stale :
    validateWithOptions rare {} = .ok () ∧
      emissionInterval rare = some (Duration.fromSecs 100) ∧
      (∀ participant now id, (positionEvent participant rare now id).stale -
        (positionEvent participant rare now id).time = Duration.fromSecs 60) ∧
      ¬ StaysFresh rare := by
  have hinterval : emissionInterval rare = some (Duration.fromSecs 100) := by decide +kernel
  have hstale : ∀ participant now id, (positionEvent participant rare now id).stale -
      (positionEvent participant rare now id).time = Duration.fromSecs 60 :=
    fun participant now id => stale_sub_time participant now id (by decide)
  refine ⟨by decide +kernel, hinterval, hstale, ?_⟩
  rintro ⟨interval, h, hle⟩
  rw [hinterval] at h
  obtain rfl := Option.some.inj h
  have hfresh := hle {} 0 0
  rw [hstale] at hfresh
  exact absurd hfresh (by decide)

end TakBench
