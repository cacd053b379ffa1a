import TakBench.Library.Rounding

/-!
# Numbers, durations and instants

An `f64` is a special value or a rational. The quotient of two counters is rounded to a double; the
arithmetic on rates, factors and seconds is exact, and rounded once, to nanoseconds. A duration and
an instant of the monotonic clock count nanoseconds; instants are counted from the start of the
scenario, wall-clock times from the epoch.

## Main definitions

* `F64`: floating-point values, with `F64.recip`, `F64.lt`; `F64.IsDouble`, `F64.quotient`
* `Duration.fromSecs`, `Duration.fromSecsF64`, `Duration.mulF64`: durations of the standard
  library; `none` where it panics

## Main results

* `Duration.isSome_fromSecsF64_iff`: where the conversion of an `f64` panics
-/

namespace TakBench

/-- An `f64`, its finite values as rationals. -/
inductive F64 where
  | nan
  | infinite (negative : Bool)
  | finite (value : ℚ)
  deriving DecidableEq

namespace F64

/-- The values that an `f64` has: 53 bits, and an exponent in range. -/
def IsDouble : F64 → Prop
  | .finite q => ∃ m e : ℤ, |m| < 2 ^ 53 ∧ -1074 ≤ e ∧ e ≤ 971 ∧ q = m * 2 ^ e
  | _ => True

/-- The quotient of two integers below `2 ^ 32`: the nearest double. -/
def quotient (numerator denominator : ℕ) : F64 :=
  .finite (Rounding.nearest 53 (numerator / denominator))

/-- The literal `0.1`. -/
def tenth : F64 := .finite (3602879701896397 / 2 ^ 55)

/-- `f64::is_finite`. -/
def isFinite : F64 → Bool
  | .finite _ => true
  | _ => false

/-- `1.0 / x`, not rounded. -/
def recip : F64 → F64
  | .nan => .nan
  | .infinite _ => .finite 0
  | .finite q => if q = 0 then .infinite false else .finite (1 / q)

/-- `x < y`; comparisons with NaN are false. -/
def lt : F64 → F64 → Bool
  | .finite p, .finite q => p < q
  | .infinite true, .finite _ => true
  | .infinite true, .infinite false => true
  | .finite _, .infinite false => true
  | _, _ => false

/-- `x <= y`; comparisons with NaN are false. -/
def le : F64 → F64 → Bool
  | .nan, _ => false
  | _, .nan => false
  | x, y => !lt y x

end F64

/-- Nanoseconds. -/
abbrev Duration := ℕ

/-- Nanoseconds of the monotonic clock since the start of the scenario. -/
abbrev Instant := ℕ

/-- Nanoseconds of the wall clock since the epoch. -/
abbrev OffsetDateTime := ℤ

namespace Duration

/-- `Duration::from_secs`. -/
def fromSecs (secs : ℕ) : Duration := secs * 1000000000

/-- `Duration::from_millis`. -/
def fromMillis (millis : ℕ) : Duration := millis * 1000000

/-- `Duration::as_secs`: the whole seconds. -/
def asSecs (d : Duration) : ℕ := d / 1000000000

/-- `Duration::as_secs_f64`. -/
def asSecsF64 (d : Duration) : ℚ := d / 1000000000

/-- The number of nanoseconds in the seconds from which on a duration is out of range. -/
def bound : ℕ := 2 ^ 64 * 1000000000

/-- `Duration::MAX`. -/
def max : Duration := bound - 1

/-- `Duration::MAX.as_secs_f64()`: the nearest double is a power of two. -/
def maxAsSecsF64 : F64 := .finite (2 ^ 64)

/-- `Duration::from_secs_f64`; it panics on negative, non-finite and overflowing values. -/
def fromSecsF64 : F64 → Option Duration
  | .finite q =>
    if q < 0 then none
    else
      let nanos := Rounding.halfEven (q * 1000000000)
      if nanos < bound then some nanos else none
  | _ => none

/-- `Duration::mul_f64`. -/
def mulF64 (d : Duration) (factor : ℚ) : Option Duration :=
  fromSecsF64 (.finite (factor * asSecsF64 d))

/-- `Duration::saturating_mul`. -/
def saturatingMul (d : Duration) (factor : ℕ) : Duration := min (d * factor) max

/-- A number of seconds is converted to at most a duration. -/
theorem fromSecsF64_le_iff {q : ℚ} {d : Duration} (hq : 0 ≤ q) (hd : d ≤ Duration.max) :
    (∃ converted, fromSecsF64 (.finite q) = some converted ∧ converted ≤ d) ↔
      Rounding.halfEven (q * 1000000000) ≤ d := by
  rw [fromSecsF64, if_neg (not_lt.mpr hq)]
  constructor
  · rintro ⟨converted, hconverted, hle⟩
    simp only [Option.ite_none_right_eq_some, Option.some.injEq] at hconverted
    exact hconverted.2 ▸ hle
  · intro hle
    have hlt : Rounding.halfEven (q * 1000000000) < bound :=
      (hle.trans hd).trans_lt (Nat.sub_lt (by decide) (by decide))
    exact ⟨_, if_pos hlt, hle⟩

/-- `Duration::from_secs_f64` panics from half a nanosecond below the bound on. -/
theorem isSome_fromSecsF64_iff {q : ℚ} (hq : 0 ≤ q) :
    (fromSecsF64 (.finite q)).isSome = true ↔ q * 1000000000 + 1 / 2 < bound := by
  have hnanos : 0 ≤ q * 1000000000 := by positivity
  rw [← Rounding.halfEven_lt_iff hnanos (by decide), fromSecsF64, if_neg (not_lt.mpr hq)]
  by_cases h : Rounding.halfEven (q * 1000000000) < bound <;> simp [h]

end Duration

end TakBench
