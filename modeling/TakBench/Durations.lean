import TakBench.Library.Text
import TakBench.Numeric

/-!
# Durations in texts

A duration is a number and a unit. The configuration file and the command line have a parser each.
Both cut the trimmed text at its first character that is no digit, and fall back on the length of
the text that is not trimmed; so they panic on a number without a unit between whitespace. On
minutes and hours one saturates and the other wraps.

## Main definitions

* `DurationSerde.parseDuration`: the parser of the configuration file
* `Main.parseDuration`: the parser of the command line
* `IsQuantity`: the grammar of durations

## Main results

* `parseDurationWith_eq`: where the parsers panic, and what they read elsewhere
* `DurationSerde.acceptsGrammar_iff`: where the parser of the file accepts its grammar
* `Main.parsersAgree_iff`: where the two parsers agree
* `DurationSerde.written_back`: what of a duration is written
-/

namespace TakBench

open String (utf8Len)

/-! ## The parsers -/

/-- The text behind a plus sign. -/
def withoutPlus : List Char → List Char
  | '+' :: digits => digits
  | text => text

/-- `u64::from_str`: a plus sign is allowed, and the value must be in range. -/
def parseU64 (text : List Char) : Option ℕ :=
  let digits := withoutPlus text
  if digits.isEmpty || !digits.all (·.isDigit) then none
  else
    let value := Nat.ofDigitChars 10 digits 0
    if value < 2 ^ 64 then some value else none

/-- The duration of a number and a unit. The parsers differ in their errors, and in the product of
the number and the seconds of the unit. -/
def readQuantity {ε : Type} (numberError unitError : ε) (mul : ℕ → ℕ → ℕ)
    (number unit : List Char) : Except ε Duration :=
  match parseU64 number with
  | none => .error numberError
  | some value =>
    match unit with
    | ['s'] => .ok (Duration.fromSecs value)
    | ['m'] => .ok (Duration.fromSecs (mul value 60))
    | ['h'] => .ok (Duration.fromSecs (mul value 3600))
    | _ => .error unitError

/-- What both parsers do; `none` is a panic of `split_at`. -/
def parseDurationWith {ε : Type} (numberError unitError : ε) (mul : ℕ → ℕ → ℕ) (raw : String) :
    Option (Except ε Duration) :=
  let trimmed := Text.trim raw.toList
  -- the fallback is the length of the text that is not trimmed
  let offset := (Text.find (fun c => !c.isDigit) trimmed).getD (utf8Len raw.toList)
  (Text.splitAt offset trimmed).map fun (number, unit) =>
    readQuantity numberError unitError mul number unit

inductive ConfigError where
  | duration (raw : String)
  deriving DecidableEq

/-- `config::duration_serde::parse_duration`: the product saturates. -/
def DurationSerde.parseDuration (raw : String) : Option (Except ConfigError Duration) :=
  parseDurationWith (.duration raw) (.duration raw)
    (fun value secs => min (value * secs) (2 ^ 64 - 1)) raw

/-- `main::parse_duration`, with the outermost message of an error. In a release build the product
wraps. -/
def Main.parseDuration (raw : String) : Option (Except String Duration) :=
  parseDurationWith "duration needs a numeric value" "duration must use s, m, or h"
    (fun value secs => value * secs % 2 ^ 64) raw

/-! ## The grammar -/

/-- The seconds of a unit. -/
def unitSecs : Char → Option ℕ
  | 's' => some 1
  | 'm' => some 60
  | 'h' => some 3600
  | _ => none

/-- The text is a 64-bit number in digits, followed by a unit. -/
def IsQuantity (text : List Char) (value secs : ℕ) : Prop :=
  value < 2 ^ 64 ∧ ∃ digits unit, text = digits ++ [unit] ∧ digits ≠ [] ∧
    (∀ c ∈ digits, c.isDigit = true) ∧ value = Nat.ofDigitChars 10 digits 0 ∧
    unitSecs unit = some secs

section Grammar

variable {text digits : List Char} {unit : Char} {value secs : ℕ}

theorem isDigit_of_unitSecs (h : unitSecs unit = some secs) : unit.isDigit = false := by
  unfold unitSecs at h
  split at h
  · rfl
  · rfl
  · rfl
  · cases h

theorem withoutPlus_of_digits (hdigits : ∀ c ∈ digits, c.isDigit = true) :
    withoutPlus digits = digits := by
  unfold withoutPlus
  split
  · next rest =>
    have hplus : ('+' : Char).isDigit = true := hdigits '+' List.mem_cons_self
    cases hplus
  · rfl

/-- The number of a text without a sign. -/
theorem parseU64_eq_some_iff (hdigits : ∀ c ∈ digits, c.isDigit = true) :
    parseU64 digits = some value ↔
      digits ≠ [] ∧ value = Nat.ofDigitChars 10 digits 0 ∧ value < 2 ^ 64 := by
  have hall : digits.all (·.isDigit) = true := List.all_eq_true.mpr hdigits
  simp only [parseU64, withoutPlus_of_digits hdigits, hall]
  cases digits with
  | nil => simp
  | cons c cs =>
    simp only [List.isEmpty_cons, Bool.not_true, Bool.or_self, Bool.false_eq_true, if_false,
      Option.ite_none_right_eq_some, Option.some.injEq]
    constructor
    · rintro ⟨hlt, rfl⟩
      exact ⟨List.cons_ne_nil _ _, rfl, hlt⟩
    · rintro ⟨-, rfl, hlt⟩
      exact ⟨hlt, rfl⟩

/-- The digits of a quantity are those in front, and its unit is what follows. -/
theorem isQuantity_iff : IsQuantity text value secs ↔
    parseU64 (text.takeWhile (·.isDigit)) = some value ∧
      ∃ unit, text.dropWhile (·.isDigit) = [unit] ∧ unitSecs unit = some secs := by
  constructor
  · rintro ⟨hlt, digits, unit, rfl, hne, hdigits, hvalue, hunit⟩
    have hstop : [unit].takeWhile (·.isDigit) = [] := by
      simp [isDigit_of_unitSecs hunit]
    have hrest : [unit].dropWhile (·.isDigit) = [unit] := by
      simp [isDigit_of_unitSecs hunit]
    rw [List.takeWhile_append_of_pos hdigits, List.dropWhile_append_of_pos hdigits, hstop, hrest,
      List.append_nil, parseU64_eq_some_iff hdigits]
    exact ⟨⟨hne, hvalue, hlt⟩, unit, rfl, hunit⟩
  · rintro ⟨hnumber, unit, hrest, hunit⟩
    have hdigits : ∀ c ∈ text.takeWhile (·.isDigit), c.isDigit = true :=
      fun c hc => List.mem_takeWhile_imp hc
    obtain ⟨hne, hvalue, hlt⟩ := (parseU64_eq_some_iff hdigits).mp hnumber
    refine ⟨hlt, _, unit, ?_, hne, hdigits, hvalue, hunit⟩
    rw [← hrest, List.takeWhile_append_dropWhile]

variable {ε : Type} {numberError unitError : ε} {mul : ℕ → ℕ → ℕ} {raw : String} {d : Duration}

/-- What is read are the quantities. -/
theorem readQuantity_eq_ok_iff (hmul : ∀ value < 2 ^ 64, mul value 1 = value) :
    readQuantity numberError unitError mul (text.takeWhile (·.isDigit))
        (text.dropWhile (·.isDigit)) = .ok d ↔
      ∃ value secs, IsQuantity text value secs ∧ d = Duration.fromSecs (mul value secs) := by
  simp only [isQuantity_iff, readQuantity]
  have hlt : ∀ value, parseU64 (text.takeWhile (·.isDigit)) = some value → value < 2 ^ 64 :=
    fun value h => ((parseU64_eq_some_iff fun c hc => List.mem_takeWhile_imp hc).mp h).2.2
  cases hnumber : parseU64 (text.takeWhile (·.isDigit)) with
  | none => simp
  | some value =>
    have hone := hmul value (hlt value hnumber)
    simp only [Option.some.injEq]
    constructor
    · intro h
      split at h
      · next hunit =>
        refine ⟨value, 1, ⟨rfl, 's', hunit, rfl⟩, ?_⟩
        rw [hone]
        exact (Except.ok.inj h).symm
      · next hunit => exact ⟨value, 60, ⟨rfl, 'm', hunit, rfl⟩, (Except.ok.inj h).symm⟩
      · next hunit => exact ⟨value, 3600, ⟨rfl, 'h', hunit, rfl⟩, (Except.ok.inj h).symm⟩
      · cases h
    · rintro ⟨value', secs, ⟨rfl, unit, hunit, hsecs⟩, rfl⟩
      unfold unitSecs at hsecs
      rw [hunit]
      split at hsecs
      · obtain rfl := Option.some.inj hsecs
        rw [hone]
        rfl
      · obtain rfl := Option.some.inj hsecs
        rfl
      · obtain rfl := Option.some.inj hsecs
        rfl
      · cases hsecs

/-! ## Where the parsers panic -/

/-- The text has no whitespace at its ends, or is more than digits between them. -/
def IsCuttable (raw : String) : Prop :=
  Text.trim raw.toList = raw.toList ∨ ∃ c ∈ Text.trim raw.toList, c.isDigit = false

/-- **The parsers panic** on digits between whitespace, and read a quantity elsewhere. -/
theorem parseDurationWith_eq :
    (IsCuttable raw → parseDurationWith numberError unitError mul raw =
      some (readQuantity numberError unitError mul
        ((Text.trim raw.toList).takeWhile (·.isDigit))
        ((Text.trim raw.toList).dropWhile (·.isDigit)))) ∧
    (¬ IsCuttable raw → parseDurationWith numberError unitError mul raw = none) := by
  constructor
  · intro h
    have hoffset : (∃ c ∈ Text.trim raw.toList, (!c.isDigit) = true) ∨
        utf8Len raw.toList = utf8Len (Text.trim raw.toList) := by
      rcases h with htrim | ⟨c, hc, hdigit⟩
      · exact .inr (by rw [htrim])
      · exact .inl ⟨c, hc, by simp [hdigit]⟩
    simp only [parseDurationWith, Text.splitAt_find hoffset, Option.map_some, Bool.not_not]
  · intro h
    rw [IsCuttable, not_or] at h
    obtain ⟨htrim, hdigits⟩ := h
    have hnone : Text.find (fun c => !c.isDigit) (Text.trim raw.toList) = none := by
      refine Text.find_eq_none fun c hc => ?_
      by_contra hc'
      exact hdigits ⟨c, hc, by simpa using hc'⟩
    -- the offset is past the end of the trimmed text
    have hlt : utf8Len (Text.trim raw.toList) < utf8Len raw.toList :=
      lt_of_le_of_ne (String.utf8Len_le_of_infix (Text.trim_infix _))
        fun hlen => htrim (Text.utf8Len_trim_eq_iff.mp hlen)
    simp only [parseDurationWith, hnone, Option.getD_none, Text.splitAt_eq_none hlt,
      Option.map_none]

/-- What a parser accepts and rejects of the texts that can be cut. -/
theorem parseDurationWith_cases (hcut : IsCuttable raw)
    (hmul : ∀ value < 2 ^ 64, mul value 1 = value) :
    (∀ value secs, IsQuantity (Text.trim raw.toList) value secs →
      parseDurationWith numberError unitError mul raw =
        some (.ok (Duration.fromSecs (mul value secs)))) ∧
    ((∀ value secs, ¬ IsQuantity (Text.trim raw.toList) value secs) →
      ∃ e, parseDurationWith numberError unitError mul raw = some (.error e)) := by
  rw [parseDurationWith_eq.1 hcut]
  constructor
  · intro value secs h
    exact congrArg some ((readQuantity_eq_ok_iff hmul).mpr ⟨value, secs, h, rfl⟩)
  · intro hnone
    cases hresult : readQuantity numberError unitError mul
        ((Text.trim raw.toList).takeWhile (·.isDigit))
        ((Text.trim raw.toList).dropWhile (·.isDigit)) with
    | error e => exact ⟨e, rfl⟩
    | ok d =>
      obtain ⟨value, secs, h, -⟩ := (readQuantity_eq_ok_iff hmul).mp hresult
      exact absurd h (hnone value secs)

/-! ## The file -/

/-- The parser of the file reads the text as its grammar has it: a quantity is a duration in
seconds, as large as they can be, and anything else is an error. -/
def DurationSerde.AcceptsGrammar (raw : String) : Prop :=
  ∃ result, parseDuration raw = some result ∧
    ∀ d, result = .ok d ↔ ∃ value secs, IsQuantity (Text.trim raw.toList) value secs ∧
      d = Duration.fromSecs (min (value * secs) (2 ^ 64 - 1))

theorem min_mul_one : ∀ value < 2 ^ 64, min (value * 1) (2 ^ 64 - 1) = value := by omega

/-- **The parser of the file** accepts its grammar exactly on the texts that can be cut. -/
theorem DurationSerde.acceptsGrammar_iff (raw : String) :
    AcceptsGrammar raw ↔ IsCuttable raw := by
  constructor
  · rintro ⟨result, hresult, -⟩
    by_contra hcut
    rw [parseDuration, parseDurationWith_eq.2 hcut] at hresult
    cases hresult
  · intro hcut
    exact ⟨_, parseDurationWith_eq.1 hcut, fun d => readQuantity_eq_ok_iff min_mul_one⟩

/-- A number between blanks is a panic, as is a blank. -/
theorem DurationSerde.parseDuration_panics :
    parseDuration " 5" = none ∧ parseDuration " " = none ∧ ¬ AcceptsGrammar " 5" := by
  have hpanic : parseDuration " 5" = none := by decide
  refine ⟨hpanic, by decide, ?_⟩
  rintro ⟨result, hresult, -⟩
  exact absurd (hpanic.symm.trans hresult) (by simp)

example : DurationSerde.parseDuration " 5m " = some (.ok (Duration.fromSecs 300)) := by decide

example : DurationSerde.parseDuration "1.5h" = some (.error (.duration "1.5h")) := by decide

/-! ## The file and the command line -/

/-- Both parsers reject the text, or both accept it with the same duration. -/
def Main.Agrees (raw : String) : Prop :=
  (∃ e e', DurationSerde.parseDuration raw = some (.error e) ∧
    Main.parseDuration raw = some (.error e')) ∨
  ∃ d, DurationSerde.parseDuration raw = some (.ok d) ∧ Main.parseDuration raw = some (.ok d)

theorem mul_one_mod : ∀ value < 2 ^ 64, value * 1 % 2 ^ 64 = value := by omega

theorem DurationSerde.parseDuration_cases (hcut : IsCuttable raw) :
    (∀ value secs, IsQuantity (Text.trim raw.toList) value secs → parseDuration raw =
      some (.ok (Duration.fromSecs (min (value * secs) (2 ^ 64 - 1))))) ∧
    ((∀ value secs, ¬ IsQuantity (Text.trim raw.toList) value secs) →
      ∃ e, parseDuration raw = some (.error e)) :=
  parseDurationWith_cases hcut min_mul_one

theorem Main.parseDuration_cases (hcut : IsCuttable raw) :
    (∀ value secs, IsQuantity (Text.trim raw.toList) value secs → parseDuration raw =
      some (.ok (Duration.fromSecs (value * secs % 2 ^ 64)))) ∧
    ((∀ value secs, ¬ IsQuantity (Text.trim raw.toList) value secs) →
      ∃ e, parseDuration raw = some (.error e)) :=
  parseDurationWith_cases hcut mul_one_mod

/-- A product that saturates is no multiple of a unit. -/
theorem saturated_eq_wrapped_iff (h : IsQuantity text value secs) :
    min (value * secs) (2 ^ 64 - 1) = value * secs % 2 ^ 64 ↔ value * secs < 2 ^ 64 := by
  obtain ⟨hvalue, digits, unit, -, -, -, -, hunit⟩ := h
  unfold unitSecs at hunit
  split at hunit
  · obtain rfl := Option.some.inj hunit
    omega
  · obtain rfl := Option.some.inj hunit
    omega
  · obtain rfl := Option.some.inj hunit
    omega
  · cases hunit

theorem Duration.fromSecs_injective : Function.Injective Duration.fromSecs := fun _ _ h =>
  Nat.eq_of_mul_eq_mul_right (by decide) h

/-- **The two parsers agree** on a text exactly when it can be cut and the seconds of a quantity
are in range. -/
theorem Main.parsersAgree_iff (raw : String) :
    Agrees raw ↔ IsCuttable raw ∧ ∀ value secs, IsQuantity (Text.trim raw.toList) value secs →
      value * secs < 2 ^ 64 := by
  by_cases hcut : IsCuttable raw
  · rw [and_iff_right hcut]
    obtain ⟨hfile, hfile'⟩ := DurationSerde.parseDuration_cases hcut
    obtain ⟨hline, hline'⟩ := Main.parseDuration_cases hcut
    constructor
    · intro h value secs hquantity
      rw [← saturated_eq_wrapped_iff hquantity]
      have hok := hfile value secs hquantity
      have hok' := hline value secs hquantity
      rcases h with ⟨e, e', h, -⟩ | ⟨d, h, h'⟩
      · cases hok.symm.trans h
      · have hd := Except.ok.inj (Option.some.inj (hok.symm.trans h))
        have hd' := Except.ok.inj (Option.some.inj (hok'.symm.trans h'))
        exact Duration.fromSecs_injective (hd.trans hd'.symm)
    · intro h
      by_cases hsome : ∃ value secs, IsQuantity (Text.trim raw.toList) value secs
      · obtain ⟨value, secs, hquantity⟩ := hsome
        have hsame := (saturated_eq_wrapped_iff hquantity).mpr (h value secs hquantity)
        refine .inr ⟨_, hfile value secs hquantity, ?_⟩
        rw [hline value secs hquantity, hsame]
      · have hnone : ∀ value secs, ¬ IsQuantity (Text.trim raw.toList) value secs :=
          fun value secs hquantity => hsome ⟨value, secs, hquantity⟩
        obtain ⟨e, he⟩ := hfile' hnone
        obtain ⟨e', he'⟩ := hline' hnone
        exact .inl ⟨e, e', he, he'⟩
  · refine iff_of_false ?_ fun h => hcut h.1
    rintro (⟨e, e', h, -⟩ | ⟨d, h, -⟩) <;>
      rw [DurationSerde.parseDuration, parseDurationWith_eq.2 hcut] at h <;> cases h

/-- So many minutes that their seconds wrap to 44. -/
theorem Main.override_wraps :
    DurationSerde.parseDuration "307445734561825861m" =
        some (.ok (Duration.fromSecs (2 ^ 64 - 1))) ∧
      Main.parseDuration "307445734561825861m" = some (.ok (Duration.fromSecs 44)) ∧
      ¬ Agrees "307445734561825861m" := by
  have hfile : DurationSerde.parseDuration "307445734561825861m" =
      some (.ok (Duration.fromSecs (2 ^ 64 - 1))) := by decide +kernel
  have hline : Main.parseDuration "307445734561825861m" = some (.ok (Duration.fromSecs 44)) := by
    decide +kernel
  refine ⟨hfile, hline, ?_⟩
  rintro (⟨e, e', h, -⟩ | ⟨d, h, h'⟩)
  · cases hfile.symm.trans h
  · have hd := Except.ok.inj (Option.some.inj (hfile.symm.trans h))
    have hd' := Except.ok.inj (Option.some.inj (hline.symm.trans h'))
    exact absurd (hd.trans hd'.symm) (by decide)

end Grammar

/-! ## Written back -/

/-- `duration_serde::serialize`: the whole seconds. -/
def DurationSerde.serialize (value : Duration) : String :=
  toString (value / 1000000000) ++ "s"

theorem DurationSerde.toList_serialize (value : Duration) :
    (serialize value).toList = Nat.toDigits 10 (value / 1000000000) ++ ['s'] := by
  rw [serialize, String.toList_append]
  exact congrArg (· ++ ['s']) Nat.toList_repr

theorem isWhitespace_of_isDigit {c : Char} (h : c.isDigit = true) :
    Text.isWhitespace c = false := by
  simp only [Char.isDigit, Bool.and_eq_true, decide_eq_true_eq, UInt32.le_iff_toNat_le] at h
  obtain ⟨hlow, hhigh⟩ := h
  have hrange : 48 ≤ c.toNat ∧ c.toNat ≤ 57 := ⟨hlow, hhigh⟩
  simp only [Text.isWhitespace, Bool.or_eq_false_iff, Bool.and_eq_false_iff,
    decide_eq_false_iff_not]
  omega

/-- What is written is a quantity of seconds, with nothing to trim. -/
theorem DurationSerde.isQuantity_serialize {value : Duration} (h : value < Duration.bound) :
    IsCuttable (serialize value) ∧
      IsQuantity (Text.trim (serialize value).toList) (value / 1000000000) 1 := by
  have hdigits : ∀ c ∈ Nat.toDigits 10 (value / 1000000000), c.isDigit = true :=
    fun c hc => Nat.isDigit_of_mem_toDigits (by decide) (by decide) hc
  have htrim : Text.trim (serialize value).toList = (serialize value).toList := by
    apply Text.trim_eq_self
    intro c hc
    rw [toList_serialize, List.mem_append, List.mem_singleton] at hc
    rcases hc with hc | rfl
    · exact isWhitespace_of_isDigit (hdigits c hc)
    · rfl
  refine ⟨.inl htrim, Nat.div_lt_of_lt_mul ?_, _, 's', htrim.trans (toList_serialize value), ?_,
    hdigits, Nat.ofDigitChars_ten_toDigits.symm, rfl⟩
  · rwa [Nat.mul_comm]
  · exact Nat.toDigits_ne_nil

/-- **A duration that is written** is read back as its whole seconds, by the file and by the command
line; so what a file has given survives, and of the others exactly the whole seconds. -/
theorem DurationSerde.written_back {value : Duration} (h : value < Duration.bound) :
    parseDuration (serialize value) = some (.ok (Duration.fromSecs (value / 1000000000))) ∧
    Main.parseDuration (serialize value) =
      some (.ok (Duration.fromSecs (value / 1000000000))) ∧
    (parseDuration (serialize value) = some (.ok value) ↔ 1000000000 ∣ value) ∧
    ∀ raw, parseDuration raw = some (.ok value) →
      parseDuration (serialize value) = some (.ok value) := by
  obtain ⟨hcut, hquantity⟩ := isQuantity_serialize h
  have hsecs : value / 1000000000 < 2 ^ 64 := hquantity.1
  have hread : parseDuration (serialize value) =
      some (.ok (Duration.fromSecs (value / 1000000000))) := by
    rw [(parseDuration_cases hcut).1 _ _ hquantity, min_mul_one _ hsecs]
  have hline : Main.parseDuration (serialize value) =
      some (.ok (Duration.fromSecs (value / 1000000000))) := by
    rw [(Main.parseDuration_cases hcut).1 _ _ hquantity, mul_one_mod _ hsecs]
  have hwhole : parseDuration (serialize value) = some (.ok value) ↔ 1000000000 ∣ value := by
    rw [hread, Option.some.injEq, Except.ok.injEq, Duration.fromSecs]
    exact ⟨fun h => Dvd.intro_left _ h, Nat.div_mul_cancel⟩
  refine ⟨hread, hline, hwhole, fun raw hraw => hwhole.mpr ?_⟩
  -- a parser reads whole seconds
  by_cases hcut' : IsCuttable raw
  · rw [parseDuration, parseDurationWith_eq.1 hcut', Option.some.injEq] at hraw
    obtain ⟨number, secs, -, rfl⟩ := (readQuantity_eq_ok_iff min_mul_one).mp hraw
    exact Nat.dvd_mul_left _ _
  · rw [parseDuration, parseDurationWith_eq.2 hcut'] at hraw
    cases hraw

/-- A quarter of a second is written as none. -/
theorem DurationSerde.written_back_millis :
    serialize (Duration.fromMillis 250) = "0s" ∧
      parseDuration (serialize (Duration.fromMillis 250)) ≠ some (.ok (Duration.fromMillis 250)) :=
  ⟨by decide, fun h => absurd ((written_back (by decide)).2.2.1.mp h) (by decide)⟩

end TakBench
