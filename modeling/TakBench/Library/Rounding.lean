import Mathlib.Algebra.Order.Field.Power
import Mathlib.Data.Int.Log
import Mathlib.Data.Rat.Floor
import Mathlib.Tactic.Common
import Mathlib.Tactic.FieldSimp
import Mathlib.Tactic.Linarith
import Mathlib.Tactic.Positivity

/-!
# Rounding

A number that is not negative is rounded to the nearest natural number, a tie to the even one. A
floating-point number with `p` binary digits is a multiple of a power of two by fewer than `2 ^ p`;
a number is rounded to the nearest one by rounding it in units of its last place. The exponents are
not bounded.

## Main definitions

* `Rounding.halfEven`: the nearest natural number
* `Rounding.IsFloating p q`: a number with `p` digits
* `Rounding.unit p q`, `Rounding.nearest p q`: the unit in the last place, the nearest such number

## Main results

* `Rounding.halfEven_le_iff`: which numbers are rounded to at most `n`
* `Rounding.isFloating_nearest`, `Rounding.nearest_of_isFloating`, `Rounding.nearest_mono`: the
  rounding is onto the numbers with `p` digits, and monotone
* `Rounding.abs_nearest_sub_le`: the relative error
* `Rounding.lt_of_lt_nearest`: rounding takes a number over no number with `p` digits
-/

namespace Rounding

/-! ## Natural numbers -/

/-- The nearest natural number, ties to even. -/
def halfEven (q : ℚ) : ℕ :=
  let whole := ⌊q⌋.toNat
  if q - whole < 1 / 2 then whole
  else if 1 / 2 < q - whole then whole + 1
  else if whole % 2 = 0 then whole else whole + 1

/-- A number is rounded to at most `n` if it is at most a half above it; the half itself is rounded
down to an even number only. -/
theorem halfEven_le_iff {q : ℚ} {n : ℕ} (hq : 0 ≤ q) :
    halfEven q ≤ n ↔ q < n + 1 / 2 ∨ q = n + 1 / 2 ∧ n % 2 = 0 := by
  have hfloor : ((⌊q⌋.toNat : ℕ) : ℚ) = (⌊q⌋ : ℚ) := by
    have hnonneg : 0 ≤ ⌊q⌋ := Int.floor_nonneg.mpr hq
    exact_mod_cast Int.toNat_of_nonneg hnonneg
  have hle : ((⌊q⌋.toNat : ℕ) : ℚ) ≤ q := hfloor ▸ Int.floor_le q
  have hlt : q < ((⌊q⌋.toNat : ℕ) : ℚ) + 1 := hfloor ▸ Int.lt_floor_add_one q
  simp only [halfEven]
  generalize ⌊q⌋.toNat = whole at hle hlt
  split
  -- rounded down
  · next hdown =>
    constructor
    · intro h
      have hcast : (whole : ℚ) ≤ n := by exact_mod_cast h
      exact .inl (by linarith)
    · intro h
      have hcast : (whole : ℚ) < n + 1 := by rcases h with h | ⟨h, -⟩ <;> linarith
      exact Nat.lt_succ_iff.mp (by exact_mod_cast hcast)
  · split
    -- rounded up
    · next hup =>
      constructor
      · intro h
        have hcast : (whole : ℚ) + 1 ≤ n := by exact_mod_cast h
        exact .inl (by linarith)
      · intro h
        have hcast : (whole : ℚ) < n := by rcases h with h | ⟨h, -⟩ <;> linarith
        exact Nat.succ_le_of_lt (by exact_mod_cast hcast)
    -- a tie goes to the even neighbour
    · next hdown hup =>
      have htie : q = whole + 1 / 2 := by linarith
      have hbelow : q < n + 1 / 2 ↔ whole < n := by
        rw [htie, ← Nat.cast_lt (α := ℚ)]
        constructor <;> intro h <;> linarith
      have hequal : q = n + 1 / 2 ↔ whole = n := by
        rw [htie, ← Nat.cast_inj (R := ℚ)]
        constructor <;> intro h <;> linarith
      rw [hbelow, hequal]
      split <;> omega

/-- A number is rounded below an even one, if it is below it by more than a half. -/
theorem halfEven_lt_iff {q : ℚ} {n : ℕ} (hq : 0 ≤ q) (hn : n % 2 = 0) :
    halfEven q < n ↔ q + 1 / 2 < n := by
  cases n with
  | zero =>
    have hpos : ¬ q + 1 / 2 < ((0 : ℕ) : ℚ) := by
      rw [Nat.cast_zero]
      linarith
    exact iff_of_false (Nat.not_lt_zero _) hpos
  | succ n =>
    have hodd : ¬ n % 2 = 0 := by omega
    rw [Nat.lt_succ_iff, halfEven_le_iff hq, Nat.cast_succ]
    simp only [hodd, and_false, or_false]
    constructor <;> intro h <;> linarith

theorem halfEven_mono {a b : ℚ} (ha : 0 ≤ a) (h : a ≤ b) : halfEven a ≤ halfEven b := by
  rw [halfEven_le_iff ha]
  rcases (halfEven_le_iff (ha.trans h)).mp (Nat.le_refl _) with hlt | ⟨heq, heven⟩
  · exact .inl (h.trans_lt hlt)
  · rcases h.lt_or_eq with hlt | rfl
    · exact .inl (hlt.trans_eq heq)
    · exact .inr ⟨heq, heven⟩

@[simp] theorem halfEven_natCast (n : ℕ) : halfEven n = n := by
  simp [halfEven]

/-- The error is at most a half. -/
theorem abs_halfEven_sub_le {q : ℚ} (hq : 0 ≤ q) : |(halfEven q : ℚ) - q| ≤ 1 / 2 := by
  rw [abs_le]
  constructor
  · rcases (halfEven_le_iff hq).mp (Nat.le_refl _) with h | ⟨h, -⟩ <;> linarith
  · cases hn : halfEven q with
    | zero =>
      rw [Nat.cast_zero]
      linarith
    | succ n =>
      -- rounded to more than `n`
      have habove : ¬ halfEven q ≤ n := by omega
      rw [halfEven_le_iff hq, not_or, not_lt] at habove
      rw [Nat.cast_succ]
      linarith [habove.1]

/-! ## Floating-point numbers -/

variable {p : ℕ} {a b q : ℚ}

/-- A number with `p` binary digits. -/
def IsFloating (p : ℕ) (q : ℚ) : Prop := ∃ (m : ℕ) (e : ℤ), m < 2 ^ p ∧ q = m * 2 ^ e

/-- The exponent of the unit in the last of `p` places. -/
def unitExponent (p : ℕ) (q : ℚ) : ℤ := Int.log 2 q + 1 - p

/-- The unit in the last of `p` places. -/
def unit (p : ℕ) (q : ℚ) : ℚ := 2 ^ unitExponent p q

/-- The nearest number with `p` digits, ties to even. -/
def nearest (p : ℕ) (q : ℚ) : ℚ := halfEven (q / unit p q) * unit p q

theorem unit_pos : 0 < unit p q := by
  rw [unit]
  positivity

theorem div_unit_nonneg (hq : 0 ≤ q) : 0 ≤ q / unit p q := div_nonneg hq unit_pos.le

@[simp] theorem nearest_zero : nearest p 0 = 0 := by
  have hzero : halfEven 0 = 0 := halfEven_natCast 0
  rw [nearest, zero_div, hzero, Nat.cast_zero, zero_mul]

theorem nearest_nonneg : 0 ≤ nearest p q := mul_nonneg (Nat.cast_nonneg _) unit_pos.le

/-- In units of its last place a number has `p` digits before the point. -/
theorem div_unit_bounds (hp : 0 < p) (hq : 0 < q) :
    (2 : ℚ) ^ (p - 1) ≤ q / unit p q ∧ q / unit p q < 2 ^ p := by
  have hlow : (2 : ℚ) ^ Int.log 2 q ≤ q := Int.zpow_log_le_self one_lt_two hq
  have hhigh : q < (2 : ℚ) ^ (Int.log 2 q + 1) := Int.lt_zpow_succ_log_self one_lt_two q
  have htwo : (2 : ℚ) ≠ 0 := two_ne_zero
  constructor
  · rw [le_div_iff₀ unit_pos, unit, ← zpow_natCast, ← zpow_add₀ htwo, unitExponent]
    refine le_of_eq_of_le (congrArg _ ?_) hlow
    rw [Nat.cast_sub (Nat.succ_le_of_lt hp), Nat.cast_one]
    ring
  · rw [div_lt_iff₀ unit_pos, unit, ← zpow_natCast, ← zpow_add₀ htwo, unitExponent]
    refine lt_of_lt_of_eq hhigh (congrArg _ ?_)
    ring

/-- The significand that a number is rounded to. -/
theorem significand_bounds (hp : 0 < p) (hq : 0 < q) :
    2 ^ (p - 1) ≤ halfEven (q / unit p q) ∧ halfEven (q / unit p q) ≤ 2 ^ p := by
  obtain ⟨hlow, hhigh⟩ := div_unit_bounds hp hq
  constructor
  · have hmono := halfEven_mono (a := ((2 ^ (p - 1) : ℕ) : ℚ)) (Nat.cast_nonneg _)
      (by exact_mod_cast hlow)
    rwa [halfEven_natCast] at hmono
  · have hmono := halfEven_mono (b := ((2 ^ p : ℕ) : ℚ)) (div_unit_nonneg hq.le)
      (by exact_mod_cast hhigh.le)
    rwa [halfEven_natCast] at hmono

/-- A number is rounded to a multiple of its unit, or to the next power of two. -/
theorem exists_nearest_eq (hp : 0 < p) (hq : 0 < q) : ∃ (m : ℕ) (e : ℤ), m < 2 ^ p ∧
    nearest p q = m * 2 ^ e ∧ unitExponent p q ≤ e ∧ e ≤ unitExponent p q + p := by
  rcases (significand_bounds hp hq).2.lt_or_eq with hlt | heq
  · exact ⟨_, unitExponent p q, hlt, rfl, le_rfl, by omega⟩
  · refine ⟨1, unitExponent p q + p, Nat.one_lt_two_pow hp.ne', ?_, by omega, le_rfl⟩
    rw [nearest, heq, unit, zpow_add₀ two_ne_zero, zpow_natCast]
    push_cast
    ring

/-- **What a number is rounded to has `p` digits.** -/
theorem isFloating_nearest (hp : 0 < p) (hq : 0 < q) : IsFloating p (nearest p q) := by
  obtain ⟨m, e, hm, heq, -⟩ := exists_nearest_eq hp hq
  exact ⟨m, e, hm, heq⟩

/-- **A number with `p` digits is rounded to itself.** -/
theorem nearest_of_isFloating (h : IsFloating p q) : nearest p q = q := by
  obtain ⟨m, e, hm, rfl⟩ := h
  rcases Nat.eq_zero_or_pos m with rfl | hpos
  · simp
  have hq : 0 < (m : ℚ) * 2 ^ e := by positivity
  have htwo : (2 : ℚ) ≠ 0 := two_ne_zero
  -- the unit in the last place is not above the unit that the number is a multiple of
  have hexponent : unitExponent p (m * 2 ^ e) ≤ e := by
    have hlow : (2 : ℚ) ^ Int.log 2 ((m : ℚ) * 2 ^ e) ≤ m * 2 ^ e :=
      Int.zpow_log_le_self one_lt_two hq
    have hhigh : (m : ℚ) * 2 ^ e < 2 ^ ((p : ℤ) + e) := by
      rw [zpow_add₀ htwo, zpow_natCast]
      have hcast : (m : ℚ) < 2 ^ p := by exact_mod_cast hm
      gcongr
    have hlog := (zpow_lt_zpow_iff_right₀ (one_lt_two (α := ℚ))).mp (hlow.trans_lt hhigh)
    rw [unitExponent]
    omega
  obtain ⟨k, hk⟩ := Int.eq_ofNat_of_zero_le (Int.sub_nonneg.mpr hexponent)
  have hdiv : (m : ℚ) * 2 ^ e / unit p (m * 2 ^ e) = ((m * 2 ^ k : ℕ) : ℚ) := by
    rw [unit, div_eq_iff (by positivity), Nat.cast_mul, mul_assoc, Nat.cast_pow, Nat.cast_ofNat,
      ← zpow_natCast, ← zpow_add₀ htwo, ← hk]
    congr 2
    ring
  rw [nearest, hdiv, halfEven_natCast, ← hdiv, div_mul_cancel₀ _ unit_pos.ne']

/-- **Rounding is monotone.** -/
theorem nearest_mono (hp : 0 < p) (ha : 0 ≤ a) (h : a ≤ b) : nearest p a ≤ nearest p b := by
  rcases ha.eq_or_lt with rfl | hpos
  · rw [nearest_zero]
    exact nearest_nonneg
  have hb : 0 < b := hpos.trans_le h
  have hlog : Int.log 2 a ≤ Int.log 2 b := Int.log_mono_right hpos h
  rcases hlog.eq_or_lt with heq | hlt
  · -- both have the same unit
    have hunit : unit p b = unit p a := by rw [unit, unit, unitExponent, unitExponent, heq]
    rw [nearest, nearest, hunit]
    have hcast : (halfEven (a / unit p a) : ℚ) ≤ halfEven (b / unit p a) := by
      have hmono := halfEven_mono (div_unit_nonneg (p := p) ha)
        (div_le_div_of_nonneg_right h unit_pos.le)
      exact_mod_cast hmono
    exact mul_le_mul_of_nonneg_right hcast unit_pos.le
  · -- a power of two is between them
    have hlow : nearest p a ≤ 2 ^ (Int.log 2 a + 1) := by
      have hle : (halfEven (a / unit p a) : ℚ) ≤ 2 ^ p := by
        exact_mod_cast (significand_bounds hp hpos).2
      calc nearest p a ≤ 2 ^ p * unit p a := mul_le_mul_of_nonneg_right hle unit_pos.le
        _ = 2 ^ (Int.log 2 a + 1) := by
          rw [unit, ← zpow_natCast, ← zpow_add₀ two_ne_zero, unitExponent]
          congr 1
          ring
    have hhigh : (2 : ℚ) ^ Int.log 2 b ≤ nearest p b := by
      have hle : (2 : ℚ) ^ (p - 1) ≤ (halfEven (b / unit p b) : ℚ) := by
        exact_mod_cast (significand_bounds hp hb).1
      calc (2 : ℚ) ^ Int.log 2 b = 2 ^ (p - 1) * unit p b := by
            rw [unit, ← zpow_natCast, ← zpow_add₀ two_ne_zero, unitExponent,
              Nat.cast_sub (Nat.succ_le_of_lt hp), Nat.cast_one]
            congr 1
            ring
        _ ≤ nearest p b := mul_le_mul_of_nonneg_right hle unit_pos.le
    exact hlow.trans ((zpow_le_zpow_right₀ one_le_two (by omega)).trans hhigh)

/-- **The relative error** of rounding. -/
theorem abs_nearest_sub_le (hp : 0 < p) (hq : 0 < q) : |nearest p q - q| ≤ q / 2 ^ p := by
  have herror := abs_halfEven_sub_le (div_unit_nonneg (p := p) hq.le)
  have hfactor : nearest p q - q = (halfEven (q / unit p q) - q / unit p q) * unit p q := by
    rw [sub_mul, div_mul_cancel₀ _ unit_pos.ne', nearest]
  have hpower : (2 : ℚ) ^ p = 2 * 2 ^ (p - 1) := by
    rw [← pow_succ', Nat.sub_add_cancel hp]
  have hlow := (div_unit_bounds hp hq).1
  rw [le_div_iff₀ unit_pos] at hlow
  calc |nearest p q - q| = |(halfEven (q / unit p q) : ℚ) - q / unit p q| * unit p q := by
        rw [hfactor, abs_mul, abs_of_pos unit_pos]
    _ ≤ 1 / 2 * unit p q := mul_le_mul_of_nonneg_right herror unit_pos.le
    _ ≤ q / 2 ^ p := by
        rw [le_div_iff₀ (by positivity), hpower]
        linarith

/-- A number with `p` digits that is below what a number is rounded to, is below the number. -/
theorem lt_of_lt_nearest (hp : 0 < p) (hq : 0 ≤ q) (ha : IsFloating p a)
    (h : a < nearest p q) : a < q := by
  by_contra hle
  have hmono := nearest_mono hp hq (not_lt.mp hle)
  rw [nearest_of_isFloating ha] at hmono
  exact absurd h (not_lt.mpr hmono)

/-- **The greatest number with `p` digits below one.** -/
theorem IsFloating.le_of_lt_one (hp : 0 < p) (ha : IsFloating p a) (h : a < 1) :
    a ≤ 1 - 1 / 2 ^ p := by
  have hpower : (0 : ℚ) < 2 ^ p := by positivity
  by_cases hhalf : a < 1 / 2
  · have hle : 1 / (2 : ℚ) ^ p ≤ 1 / 2 := by
      refine one_div_le_one_div_of_le two_pos ?_
      exact le_self_pow₀ one_le_two hp.ne'
    linarith
  · -- a multiple of the unit of the numbers from a half on
    have hpos : 0 < a := by linarith
    have hlog : Int.log 2 a = -1 := by
      refine le_antisymm ?_ ?_
      · have hlt : Int.log 2 a < 0 := by
          rw [← Int.lt_zpow_iff_log_lt one_lt_two hpos]
          simpa using h
        omega
      · rw [← Int.zpow_le_iff_le_log one_lt_two hpos]
        norm_num
        linarith
    have hmultiple : (halfEven (a / unit p a) : ℚ) = a * 2 ^ p := by
      have heq := nearest_of_isFloating ha
      have hunit : unit p a = (2 ^ p)⁻¹ := by
        rw [unit, unitExponent, hlog, ← zpow_natCast, ← zpow_neg]
        congr 1
        ring
      rw [nearest, hunit, ← div_eq_mul_inv, div_eq_iff hpower.ne'] at heq
      rw [hunit]
      exact heq
    have hlt : (halfEven (a / unit p a) : ℚ) < ((2 ^ p : ℕ) : ℚ) := by
      rw [hmultiple]
      push_cast
      nlinarith
    have hle : (halfEven (a / unit p a) : ℚ) + 1 ≤ ((2 ^ p : ℕ) : ℚ) := by
      exact_mod_cast Nat.succ_le_of_lt (Nat.cast_lt.mp hlt)
    rw [hmultiple] at hle
    push_cast at hle
    rw [le_sub_iff_add_le, ← mul_le_mul_iff_left₀ hpower, add_mul, one_div_mul_cancel hpower.ne']
    linarith

end Rounding
