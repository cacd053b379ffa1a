import TakBench.Runner.Thresholds

/-!
# Error rates

`evaluate` takes an error rate as a quotient of two 64-bit counters, each of which is first clamped
to 32 bits, rounds it to a double, and takes it as zero while nothing is counted below the line. So
the rates are over the limits of the exact ones for counters that fit and whose quotient is not
rounded down, and a run that loses messages stays over its limits for as long as it has enough
samples and still sends something.

## Main definitions

* `IsFaithful`, `SameLimits`: clamping and rounding keep a quotient on its side of every limit
* `MetricsSnapshot.ComparesRatios`: the limits are compared with the exact rates
* `MetricsSnapshot.lose`: messages move from the sent ones to the dropped ones

## Main results

* `isSome_evaluate_iff`: what `evaluate` reports, limit by limit
* `sameLimits_iff`: which rates are over the same limits as the exact ones
* `comparesRatios_iff`: the snapshots whose exact rates are compared
* `loss_reported_iff`: a violation is still reported after a loss
-/

namespace TakBench

variable {config : AbortConfig} {s : MetricsSnapshot}

/-- **A violation is reported** when there are enough samples and one of the limits is exceeded. -/
theorem isSome_evaluate_iff :
    (evaluate config s).isSome = true ↔ config.minSamples.getD 1 ≤ s.samples ∧
      (rateExceeds config.connectionErrorRate s.connectionErrorRate = true ∨
        rateExceeds config.messageErrorRate s.messageErrorRate = true ∨
        latencyExceeds config.p95Latency s.deliveryP95Ms = true ∨
        latencyExceeds config.p99Latency s.deliveryP99Ms = true ∨
        config.maxDroppedMessages.any (· < s.counters .droppedMessages) = true) := by
  rw [evaluate]
  split
  · next hfew => exact iff_of_false (by simp) fun h => absurd h.1 (Nat.not_le.mpr hfew)
  · next henough =>
    rw [and_iff_right (Nat.le_of_not_lt henough)]
    -- the limits are looked at in turn, and the first one that is exceeded is reported
    split
    · next h => exact iff_of_true rfl (.inl h)
    · next h₁ =>
      rw [or_iff_right h₁]
      split
      · next h => exact iff_of_true rfl (.inl h)
      · next h₂ =>
        rw [or_iff_right h₂]
        split
        · next h => exact iff_of_true rfl (.inl h)
        · next h₃ =>
          rw [or_iff_right h₃]
          split
          · next h => exact iff_of_true rfl (.inl h)
          · next h₄ =>
            rw [or_iff_right h₄]
            split
            · next h => exact iff_of_true rfl h
            · next h => exact iff_of_false (by simp) h

/-! ## Doubles -/

namespace F64

theorem isFloating_of_isDouble {q : ℚ} (h : (finite q).IsDouble) (hq : 0 ≤ q) :
    Rounding.IsFloating 53 q := by
  obtain ⟨m, e, hm, -, -, rfl⟩ := h
  have hpower : (0 : ℚ) < 2 ^ e := by positivity
  have hnonneg : 0 ≤ m := by exact_mod_cast nonneg_of_mul_nonneg_left hq hpower
  obtain ⟨k, rfl⟩ := Int.eq_ofNat_of_zero_le hnonneg
  refine ⟨k, e, ?_, by push_cast; rfl⟩
  rw [Nat.abs_cast] at hm
  exact_mod_cast hm

/-- A natural number of at most 53 bits, times a power of two that is in range. -/
theorem isDouble_mul {m : ℕ} {e : ℤ} (hm : m < 2 ^ 53) (hlow : -1074 ≤ e) (hhigh : e ≤ 971) :
    (finite ((m : ℚ) * 2 ^ e)).IsDouble := by
  refine ⟨m, e, ?_, hlow, hhigh, by push_cast; rfl⟩
  rw [Nat.abs_cast]
  exact_mod_cast hm

/-- **The quotient of two counters that fit** is a double. -/
theorem isDouble_quotient {numerator denominator : ℕ} (hnumerator : 0 < numerator)
    (hdenominator : 0 < denominator) (hn : numerator < 2 ^ 32) (hd : denominator < 2 ^ 32) :
    (quotient numerator denominator).IsDouble := by
  have hpos : (0 : ℚ) < numerator / denominator := by positivity
  have hone : (1 : ℚ) ≤ numerator := by exact_mod_cast hnumerator
  have hone' : (1 : ℚ) ≤ denominator := by exact_mod_cast hdenominator
  have hn' : (numerator : ℚ) < 2 ^ 32 := by exact_mod_cast hn
  have hd' : (denominator : ℚ) < 2 ^ 32 := by exact_mod_cast hd
  have hlow : (-32 : ℤ) ≤ Int.log 2 ((numerator : ℚ) / denominator) := by
    rw [← Int.zpow_le_iff_le_log one_lt_two hpos, le_div_iff₀ (by positivity)]
    norm_num
    linarith
  have hhigh : Int.log 2 ((numerator : ℚ) / denominator) < 32 := by
    rw [← Int.lt_zpow_iff_log_lt one_lt_two hpos, div_lt_iff₀ (by positivity)]
    norm_num
    nlinarith
  obtain ⟨m, e, hm, heq, hle, hge⟩ := Rounding.exists_nearest_eq (p := 53) (by decide) hpos
  rw [Rounding.unitExponent] at hle hge
  rw [quotient, heq]
  exact isDouble_mul hm (by push_cast at hle; omega) (by push_cast at hge; omega)

end F64

/-! ## Clamped quotients -/

/-- The quotient of two counters, clamped to 32 bits and rounded, is on the same side of every limit
as the exact one: both counters fit and the quotient is not rounded down; or nothing is above the
line; or neither fits, and the exact quotient is above all doubles below one, and not above one. -/
def IsFaithful (numerator denominator : ℕ) : Prop :=
  (numerator < 2 ^ 32 ∧ denominator < 2 ^ 32 ∧
      (numerator : ℚ) / denominator ≤ Rounding.nearest 53 (numerator / denominator)) ∨
    numerator = 0 ∨
    2 ^ 32 ≤ numerator ∧ numerator ≤ denominator ∧
      (denominator - numerator) * 2 ^ 53 < denominator

/-- Two rates are over the same limits. -/
def SameLimits (rate rate' : F64) : Prop :=
  ∀ limit : F64, limit.IsDouble → limit.lt rate = limit.lt rate'

/-- The limits that decide are the finite ones. -/
theorem sameLimits_iff_finite {q q' : ℚ} : SameLimits (.finite q) (.finite q') ↔
    ∀ limit : ℚ, (F64.finite limit).IsDouble → (limit < q ↔ limit < q') := by
  constructor
  · intro h limit hlimit
    have hlt := h (.finite limit) hlimit
    rwa [F64.lt, F64.lt, decide_eq_decide] at hlt
  · intro h limit hlimit
    cases limit with
    | nan => rfl
    | infinite negative => cases negative <;> rfl
    | finite limit =>
      rw [F64.lt, F64.lt, decide_eq_decide]
      exact h limit hlimit

/-- **A quotient that is not rounded down** is over the same limits as the exact one. -/
theorem sameLimits_of_le {q : ℚ} (hq : 0 ≤ q) (hup : q ≤ Rounding.nearest 53 q) :
    SameLimits (.finite (Rounding.nearest 53 q)) (.finite q) := by
  refine sameLimits_iff_finite.mpr fun limit hlimit => ⟨fun hlt => ?_, fun hlt => hlt.trans_le hup⟩
  rcases lt_or_ge limit 0 with hneg | hnonneg
  · exact hneg.trans_le hq
  · exact Rounding.lt_of_lt_nearest (by decide) hq
      (F64.isFloating_of_isDouble hlimit hnonneg) hlt

section Ratio

variable {numerator denominator : ℕ}

theorem ratio_of_pos (hpos : 0 < denominator) : ratio numerator denominator =
    .quotient (min numerator (2 ^ 32 - 1)) (min denominator (2 ^ 32 - 1)) := by
  rw [ratio, if_neg (Nat.pos_iff_ne_zero.mp hpos)]

/-- Counters that fit: the quotient must not be rounded down. -/
theorem sameLimits_fitting_iff (hnumerator : 0 < numerator) (hpos : 0 < denominator)
    (hn : numerator < 2 ^ 32) (hd : denominator < 2 ^ 32) :
    SameLimits (.quotient numerator denominator) (.finite (numerator / denominator)) ↔
      (numerator : ℚ) / denominator ≤ Rounding.nearest 53 (numerator / denominator) := by
  refine ⟨fun h => ?_, sameLimits_of_le (by positivity)⟩
  -- the limit that the rate itself is
  have hlimit := sameLimits_iff_finite.mp h _ (F64.isDouble_quotient hnumerator hpos hn hd)
  exact not_lt.mp (hlimit.not.mp (lt_irrefl _))

/-- When only the denominator is clamped, the rate is over a limit that the quotient is not over. -/
theorem not_sameLimits_denominator (hnumerator : 0 < numerator) (hn : numerator < 2 ^ 32)
    (hd : 2 ^ 32 ≤ denominator) :
    ¬ SameLimits (.quotient numerator (2 ^ 32 - 1)) (.finite (numerator / denominator)) := by
  intro h
  have hpos : (0 : ℚ) < numerator := by exact_mod_cast hnumerator
  have hd' : (2 ^ 32 : ℚ) ≤ denominator := by exact_mod_cast hd
  have hlimit := sameLimits_iff_finite.mp h ((numerator : ℚ) * 2 ^ (-32 : ℤ))
    (F64.isDouble_mul (hn.trans (by decide)) (by decide) (by decide))
  have herror := (abs_le.mp (Rounding.abs_nearest_sub_le (p := 53) (by decide)
    (show (0 : ℚ) < numerator / (2 ^ 32 - 1 : ℕ) by positivity))).1
  refine absurd (hlimit.mp ?_) (not_lt.mpr ?_)
  · -- the rounding does not make up for the clamping
    refine lt_of_lt_of_le ?_ (show (numerator : ℚ) / (2 ^ 32 - 1 : ℕ) -
      numerator / (2 ^ 32 - 1 : ℕ) / 2 ^ 53 ≤ _ by linarith)
    norm_num
    linarith
  · rw [div_le_iff₀ (by linarith)]
    norm_num
    nlinarith

/-- When only the numerator is clamped, the quotient is over a limit that the rate is not over. -/
theorem not_sameLimits_numerator (hpos : 0 < denominator) (hn : 2 ^ 32 ≤ numerator)
    (hd : denominator < 2 ^ 32) :
    ¬ SameLimits (.quotient (2 ^ 32 - 1) denominator) (.finite (numerator / denominator)) := by
  intro h
  have hpos' : (0 : ℚ) < denominator := by exact_mod_cast hpos
  have hn' : (2 ^ 32 : ℚ) ≤ numerator := by exact_mod_cast hn
  have hlimit := sameLimits_iff_finite.mp h _
    (F64.isDouble_quotient (show 0 < 2 ^ 32 - 1 by decide) hpos (by decide) hd)
  have hle := not_lt.mp (hlimit.not.mp (lt_irrefl _))
  have herror := (abs_le.mp (Rounding.abs_nearest_sub_le (p := 53) (by decide)
    (show (0 : ℚ) < (2 ^ 32 - 1 : ℕ) / denominator by positivity))).2
  have hbound : (numerator : ℚ) / denominator ≤
      (2 ^ 32 - 1 : ℕ) / denominator + (2 ^ 32 - 1 : ℕ) / denominator / 2 ^ 53 :=
    hle.trans (by linarith)
  rw [div_div, mul_comm, ← div_div, ← add_div, div_le_div_iff_of_pos_right hpos'] at hbound
  norm_num at hbound
  linarith

/-- When both are clamped, the rate is one. -/
theorem sameLimits_clamped_iff (hn : 2 ^ 32 ≤ numerator) (hd : 2 ^ 32 ≤ denominator) :
    SameLimits (.quotient (2 ^ 32 - 1) (2 ^ 32 - 1)) (.finite (numerator / denominator)) ↔
      numerator ≤ denominator ∧ (denominator - numerator) * 2 ^ 53 < denominator := by
  have hpos : (0 : ℚ) < denominator := by
    exact_mod_cast (show 0 < 2 ^ 32 by decide).trans_le hd
  have hone : F64.quotient (2 ^ 32 - 1) (2 ^ 32 - 1) = .finite 1 := by
    have hfloating : Rounding.IsFloating 53 1 := ⟨1, 0, by decide, by norm_num⟩
    rw [F64.quotient, div_self (by norm_num), Rounding.nearest_of_isFloating hfloating]
  -- the greatest double below one
  have hnext : (F64.finite (1 - 1 / 2 ^ 53)).IsDouble :=
    ⟨2 ^ 53 - 1, -53, by norm_num, by decide, by decide, by norm_num⟩
  have hgap : 1 - 1 / 2 ^ 53 < (numerator : ℚ) / denominator ↔
      denominator * 2 ^ 53 < numerator * 2 ^ 53 + denominator := by
    rw [lt_div_iff₀ hpos, ← Nat.cast_lt (α := ℚ)]
    push_cast
    constructor <;> intro h <;> linarith
  rw [hone, sameLimits_iff_finite]
  constructor
  · intro h
    have hle : numerator ≤ denominator := by
      have hlimit := (h 1 ⟨1, 0, by decide, by decide, by decide, by norm_num⟩).not.mp (lt_irrefl _)
      rw [not_lt, div_le_one hpos] at hlimit
      exact_mod_cast hlimit
    refine ⟨hle, ?_⟩
    have hlimit := hgap.mp ((h _ hnext).mp (by norm_num))
    rw [Nat.sub_mul]
    omega
  · rintro ⟨hle, hclose⟩ limit hlimit
    have hle' : (numerator : ℚ) / denominator ≤ 1 := by
      rw [div_le_one hpos]
      exact_mod_cast hle
    refine ⟨fun hlt => ?_, fun hlt => hlt.trans_le hle'⟩
    rcases lt_or_ge limit 0 with hneg | hnonneg
    · exact hneg.trans_le (by positivity)
    · refine ((F64.isFloating_of_isDouble hlimit hnonneg).le_of_lt_one (by decide) hlt).trans_lt ?_
      rw [hgap]
      rw [Nat.sub_mul] at hclose
      omega

/-- **A rate is over the same limits as the exact quotient** exactly when it is faithful. -/
theorem sameLimits_iff (hpos : 0 < denominator) :
    SameLimits (ratio numerator denominator) (.finite ((numerator : ℚ) / denominator)) ↔
      IsFaithful numerator denominator := by
  rw [ratio_of_pos hpos, IsFaithful]
  rcases Nat.eq_zero_or_pos numerator with rfl | hnumerator
  · refine iff_of_true ?_ (.inr (.inl rfl))
    simp [F64.quotient, SameLimits]
  rcases Nat.lt_or_ge numerator (2 ^ 32) with hn | hn <;>
    rcases Nat.lt_or_ge denominator (2 ^ 32) with hd | hd
  · rw [min_eq_left (Nat.le_sub_one_of_lt hn), min_eq_left (Nat.le_sub_one_of_lt hd),
      sameLimits_fitting_iff hnumerator hpos hn hd]
    constructor
    · exact fun h => .inl ⟨hn, hd, h⟩
    · rintro (⟨-, -, h⟩ | h | ⟨h, -⟩)
      · exact h
      · omega
      · omega
  · rw [min_eq_left (Nat.le_sub_one_of_lt hn), min_eq_right (by omega)]
    refine iff_of_false (not_sameLimits_denominator hnumerator hn hd) ?_
    rintro (⟨-, h, -⟩ | h | ⟨h, -⟩) <;> omega
  · rw [min_eq_right (by omega), min_eq_left (Nat.le_sub_one_of_lt hd)]
    refine iff_of_false (not_sameLimits_numerator hpos hn hd) ?_
    rintro (⟨h, -⟩ | h | ⟨-, h, -⟩) <;> omega
  · rw [min_eq_right (by omega), min_eq_right (by omega), sameLimits_clamped_iff hn hd]
    constructor
    · exact fun h => .inr (.inr ⟨hn, h⟩)
    · rintro (⟨h, -⟩ | h | ⟨-, h⟩)
      · omega
      · omega
      · exact h

end Ratio

/-! ## The limits and the exact rates -/

theorem rateExceeds_some (limit rate : F64) : rateExceeds (some limit) rate = limit.lt rate := rfl

namespace MetricsSnapshot

/-- The events that count as errors. -/
def messageErrors (s : MetricsSnapshot) : ℕ :=
  min (s.counters .messageTimeouts + s.counters .droppedMessages) (2 ^ 64 - 1)

/-- With the two rate limits alone and enough samples, a violation is reported exactly when an exact
rate exceeds its limit. -/
def ComparesRatios (s : MetricsSnapshot) : Prop :=
  ∀ (connectionLimit messageLimit : F64) (minSamples : Option ℕ),
    connectionLimit.IsDouble → messageLimit.IsDouble → minSamples.getD 1 ≤ s.samples →
    ((evaluate
        { connectionErrorRate := some connectionLimit
          messageErrorRate := some messageLimit
          minSamples } s).isSome = true ↔
      connectionLimit.lt (.finite ((s.counters .connectionFailures : ℚ) /
        s.counters .connectionAttempts)) = true ∨
      messageLimit.lt (.finite ((s.messageErrors : ℚ) / s.counters .sentMessages)) = true)

/-- **The exact rates are compared** exactly when clamping and rounding keep both on their side of
every limit. -/
theorem comparesRatios_iff (hattempts : s.counters .connectionAttempts ≠ 0)
    (hsent : s.counters .sentMessages ≠ 0) :
    s.ComparesRatios ↔
      IsFaithful (s.counters .connectionFailures) (s.counters .connectionAttempts) ∧
        IsFaithful s.messageErrors (s.counters .sentMessages) := by
  have hevaluate : ∀ (connectionLimit messageLimit : F64) (minSamples : Option ℕ),
      minSamples.getD 1 ≤ s.samples →
      ((evaluate
          { connectionErrorRate := some connectionLimit
            messageErrorRate := some messageLimit
            minSamples } s).isSome = true ↔
        connectionLimit.lt s.connectionErrorRate = true ∨
          messageLimit.lt s.messageErrorRate = true) := by
    intro connectionLimit messageLimit minSamples henough
    simp [isSome_evaluate_iff, henough, rateExceeds, latencyExceeds]
  have hsamples : 1 ≤ s.samples := (Nat.one_le_iff_ne_zero.mpr hattempts).trans (le_max_left _ _)
  rw [← sameLimits_iff (Nat.pos_of_ne_zero hattempts), ← sameLimits_iff (Nat.pos_of_ne_zero hsent)]
  change _ ↔ SameLimits s.connectionErrorRate _ ∧ SameLimits s.messageErrorRate _
  constructor
  · intro h
    have hrates := fun connectionLimit messageLimit hconnection hmessage =>
      (hevaluate connectionLimit messageLimit none hsamples).symm.trans
        (h connectionLimit messageLimit none hconnection hmessage hsamples)
    -- a limit that is not a number is exceeded by no rate, so that the other limit decides
    have hnan : ∀ rate, F64.nan.lt rate = false := fun rate => by cases rate <;> rfl
    constructor
    · intro limit hlimit
      have hdecides := hrates limit .nan hlimit trivial
      rw [hnan, hnan, or_iff_left Bool.false_ne_true, or_iff_left Bool.false_ne_true] at hdecides
      exact Bool.eq_iff_iff.mpr hdecides
    · intro limit hlimit
      have hdecides := hrates .nan limit trivial hlimit
      rw [hnan, hnan, or_iff_right Bool.false_ne_true, or_iff_right Bool.false_ne_true] at hdecides
      exact Bool.eq_iff_iff.mpr hdecides
  · rintro ⟨hconnection, hmessage⟩ connectionLimit messageLimit minSamples hlimit hlimit' henough
    rw [hevaluate connectionLimit messageLimit minSamples henough, hconnection _ hlimit,
      hmessage _ hlimit']

/-- A snapshot with the given counts of attempts, failures, sent messages and errors. -/
def counted (attempts failures sent timeouts dropped : ℕ) : MetricsSnapshot where
  counters
    | .connectionAttempts => attempts
    | .connectionFailures => failures
    | .sentMessages => sent
    | .messageTimeouts => timeouts
    | .droppedMessages => dropped
    | _ => 0
  deliveryP95Ms := none
  deliveryP99Ms := none

/-- A rate that is rounded up, and one that is a double. -/
theorem comparesRatios_iff_small : (counted 10 1 2 1 0).ComparesRatios :=
  (comparesRatios_iff (by decide) (by decide)).mpr
    ⟨.inl ⟨by decide, by decide, by decide +kernel⟩,
      .inl ⟨by decide, by decide, by decide +kernel⟩⟩

/-- Half of the attempts failed, and the limit of three quarters is reported as exceeded; and a
third of the attempts failed, and the double below a third is not reported. -/
theorem ratio_overstated :
    (evaluate { connectionErrorRate := some (.finite (3 / 4)), messageErrorRate := some .nan }
        (counted (2 ^ 33) (2 ^ 32) 1 0 0)).isSome = true ∧
      F64.lt (.finite (3 / 4)) (.finite (((2 ^ 32 : ℕ) : ℚ) / (2 ^ 33 : ℕ))) = false ∧
      ¬ (counted (2 ^ 33) (2 ^ 32) 1 0 0).ComparesRatios ∧
    evaluate
        { connectionErrorRate := some (.finite (6004799503160661 / 2 ^ 54))
          messageErrorRate := some .nan }
        (counted 3 1 1 0 0) = none ∧
      F64.lt (.finite (6004799503160661 / 2 ^ 54)) (.finite (((1 : ℕ) : ℚ) / (3 : ℕ))) = true ∧
      ¬ (counted 3 1 1 0 0).ComparesRatios := by
  have hreported : (evaluate
      { connectionErrorRate := some (.finite (3 / 4)), messageErrorRate := some .nan }
      (counted (2 ^ 33) (2 ^ 32) 1 0 0)).isSome = true := by decide +kernel
  have hbelow : F64.lt (.finite (3 / 4)) (.finite (((2 ^ 32 : ℕ) : ℚ) / (2 ^ 33 : ℕ))) = false := by
    norm_num [F64.lt]
  have hunreported : evaluate
      { connectionErrorRate := some (.finite (6004799503160661 / 2 ^ 54))
        messageErrorRate := some .nan }
      (counted 3 1 1 0 0) = none := by decide +kernel
  have habove : F64.lt (.finite (6004799503160661 / 2 ^ 54))
      (.finite (((1 : ℕ) : ℚ) / (3 : ℕ))) = true := by
    norm_num [F64.lt]
  refine ⟨hreported, hbelow, fun h => ?_, hunreported, habove, fun h => ?_⟩
  · have hlimit : (F64.finite (3 / 4)).IsDouble :=
      ⟨3, -2, by decide, by decide, by decide, by norm_num⟩
    rcases (h (.finite (3 / 4)) .nan none hlimit trivial (by decide)).mp hreported with hlt | hlt
    · exact absurd (hbelow.symm.trans hlt) Bool.false_ne_true
    · cases hlt
  · have hlimit : (F64.finite (6004799503160661 / 2 ^ 54)).IsDouble :=
      ⟨6004799503160661, -54, by decide, by decide, by decide, by norm_num⟩
    have hsome := (h _ .nan none hlimit trivial (by decide)).mpr (.inl habove)
    rw [hunreported] at hsome
    cases hsome

/-! ## Losing messages -/

/-- Messages move from the sent ones to the dropped ones. -/
def lose (s : MetricsSnapshot) (k : ℕ) : MetricsSnapshot :=
  { s with
    counters := Function.update
      (Function.update s.counters .sentMessages (s.counters .sentMessages - k))
      .droppedMessages (s.counters .droppedMessages + k) }

section Lose

variable {k : ℕ}

theorem lose_dropped :
    (s.lose k).counters .droppedMessages = s.counters .droppedMessages + k := rfl

/-- A rate over a limit stays over it with more above the line and less, but something, below. -/
theorem lt_ratio_mono {limit : F64} {numerator numerator' denominator denominator' : ℕ}
    (hmore : numerator ≤ numerator') (hless : denominator' ≤ denominator)
    (hpos : 0 < denominator') (h : limit.lt (ratio numerator denominator) = true) :
    limit.lt (ratio numerator' denominator') = true := by
  have hclamped : 0 < min denominator' (2 ^ 32 - 1) := lt_min hpos (by decide)
  have hle : ((min numerator (2 ^ 32 - 1) : ℕ) : ℚ) / (min denominator (2 ^ 32 - 1) : ℕ) ≤
      (min numerator' (2 ^ 32 - 1) : ℕ) / (min denominator' (2 ^ 32 - 1) : ℕ) := by
    have hcast : (0 : ℚ) < (min denominator' (2 ^ 32 - 1) : ℕ) := by exact_mod_cast hclamped
    gcongr
  have hrounded := Rounding.nearest_mono (p := 53) (by decide) (by positivity) hle
  rw [ratio_of_pos (hpos.trans_le hless)] at h
  rw [ratio_of_pos hpos]
  cases limit with
  | finite q =>
    simp only [F64.quotient, F64.lt, decide_eq_true_eq] at h ⊢
    exact h.trans_le hrounded
  | nan => cases h
  | infinite negative =>
    cases negative with
    | true => rfl
    | false => cases h

/-- While something is sent, the message error rate does not fall. -/
theorem rateExceeds_lose {limit : Option F64} (hsent : k < s.counters .sentMessages)
    (h : rateExceeds limit s.messageErrorRate = true) :
    rateExceeds limit (s.lose k).messageErrorRate = true := by
  cases limit with
  | none => cases h
  | some limit =>
    rw [rateExceeds_some] at h ⊢
    refine lt_ratio_mono (min_le_min_right _ ?_) (Nat.sub_le _ k) (Nat.sub_pos_of_lt hsent) h
    exact Nat.add_le_add_left (Nat.le_add_right _ k) _

/-- When nothing is sent any more, the rate is zero. -/
theorem messageErrorRate_lose_all :
    (s.lose (s.counters .sentMessages)).messageErrorRate = .finite 0 := by
  have hzero : (s.lose (s.counters .sentMessages)).counters .sentMessages = 0 := Nat.sub_self _
  rw [messageErrorRate, ratio, if_pos hzero]

/-- **A violation is still reported after a loss** exactly when there are enough samples left, and
either something is still sent, or another limit is exceeded, or zero exceeds the limit. -/
theorem loss_reported_iff (hk : k ≤ s.counters .sentMessages)
    (h : (evaluate config s).isSome = true) :
    (evaluate config (s.lose k)).isSome = true ↔
      config.minSamples.getD 1 ≤ (s.lose k).samples ∧
      (k < s.counters .sentMessages ∨
        (evaluate { config with messageErrorRate := none } (s.lose k)).isSome = true ∨
        rateExceeds config.messageErrorRate (.finite 0) = true) := by
  obtain ⟨-, hexceeded⟩ := isSome_evaluate_iff.mp h
  rw [isSome_evaluate_iff, isSome_evaluate_iff]
  refine and_congr_right fun henough => ?_
  simp only [henough, true_and, rateExceeds, Option.any_none, Bool.false_eq_true, false_or]
  rcases hk.lt_or_eq with hlt | rfl
  · -- every limit that is exceeded before is exceeded after
    refine iff_of_true ?_ (.inl hlt)
    rcases hexceeded with hconnection | hmessage | h95 | h99 | hdropped
    · exact .inl hconnection
    · exact .inr (.inl (rateExceeds_lose hlt hmessage))
    · exact .inr (.inr (.inl h95))
    · exact .inr (.inr (.inr (.inl h99)))
    · refine .inr (.inr (.inr (.inr ?_)))
      obtain ⟨limit, hlimit, hover⟩ := (Option.any_eq_true _ _).mp hdropped
      rw [decide_eq_true_eq] at hover
      rw [hlimit, Option.any_some, decide_eq_true_eq, lose_dropped]
      exact Nat.lt_add_right k hover
  · rw [messageErrorRate_lose_all]
    simp only [lt_irrefl, false_or]
    tauto

end Lose

/-- A tenth of the messages may be lost. -/
def tenth : AbortConfig := { messageErrorRate := some (.finite (1 / 10)) }

/-- A run that loses half of its messages loses one more. -/
theorem loss_reported_iff_half : (evaluate tenth ((counted 1 0 2 0 2).lose 1)).isSome = true :=
  (loss_reported_iff (by decide) (by decide +kernel)).mpr ⟨by decide, .inl (by decide)⟩

/-- A run that loses its last message is under the limit again, and one that loses a message may
have too few samples. -/
theorem loss_unreported :
    (evaluate tenth (counted 1 0 1 0 1)).isSome = true ∧
      evaluate tenth ((counted 1 0 1 0 1).lose 1) = none ∧
      (evaluate { tenth with minSamples := some 10 } (counted 1 0 10 0 5)).isSome = true ∧
      evaluate { tenth with minSamples := some 10 } ((counted 1 0 10 0 5).lose 1) = none :=
  ⟨by decide +kernel, by decide +kernel, by decide +kernel, by decide +kernel⟩

end MetricsSnapshot

end TakBench
