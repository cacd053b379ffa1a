import TakBench.Protocol.Event

/-!
# A reference platform

A `Platform` that reads documents of tags and writes ids as hyphenated hexadecimal digits. It
renders only the numbers and times that the examples use.

## Main definitions

* `displayUuid`, `parseUuid`: ids as 8-4-4-4-12 hexadecimal digits
* `platform`
* `event`: a position event on it

## Main results

* `platform_standard`, `platform_plain`
-/

namespace TakBench.Reference

open Utf8

/-- A hexadecimal digit. -/
def hexDigit (n : ℕ) : Char := "0123456789abcdef".toList.getD n '0'

/-- The value of a hexadecimal digit. -/
def hexValue (c : Char) : ℕ := "0123456789abcdef".toList.idxOf c

/-- The last `k` hexadecimal digits of a number. -/
def hexDigits : ℕ → ℕ → List Char
  | 0, _ => []
  | k + 1, n => hexDigits k (n / 16) ++ [hexDigit (n % 16)]

/-- The number with the given hexadecimal digits. -/
def ofHexDigits (digits : List Char) : ℕ := digits.foldl (fun n c => n * 16 + hexValue c) 0

theorem hexValue_hexDigit {n : ℕ} (h : n < 16) : hexValue (hexDigit n) = n := by
  have hall : ∀ m < 16, hexValue (hexDigit m) = m := by decide
  exact hall n h

theorem hexDigit_mem (n : ℕ) : hexDigit n ∈ "0123456789abcdef".toList := by
  rw [hexDigit, List.getD_eq_getElem?_getD]
  cases h : "0123456789abcdef".toList[n]? with
  | none => decide
  | some c => exact List.mem_of_getElem? h

theorem ofHexDigits_hexDigits (k n : ℕ) : ofHexDigits (hexDigits k n) = n % 16 ^ k := by
  induction k generalizing n with
  | zero => simp [ofHexDigits, hexDigits, Nat.mod_one]
  | succ k ih =>
    have hdigit := hexValue_hexDigit (Nat.mod_lt n (by decide : 0 < 16))
    have hfold : ofHexDigits (hexDigits k (n / 16) ++ [hexDigit (n % 16)]) =
        ofHexDigits (hexDigits k (n / 16)) * 16 + hexValue (hexDigit (n % 16)) := by
      simp only [ofHexDigits, List.foldl_append, List.foldl_cons, List.foldl_nil]
    rw [hexDigits, hfold, ih, hdigit, pow_succ, Nat.mul_comm (16 ^ k) 16, Nat.mod_mul]
    omega

theorem length_hexDigits (k n : ℕ) : (hexDigits k n).length = k := by
  induction k generalizing n with
  | zero => rfl
  | succ k ih => rw [hexDigits, List.length_append, ih]; rfl

theorem mem_hexDigits {k n : ℕ} {c : Char} (h : c ∈ hexDigits k n) :
    c ∈ "0123456789abcdef".toList := by
  induction k generalizing n with
  | zero => simp [hexDigits] at h
  | succ k ih =>
    rw [hexDigits] at h
    rcases List.mem_append.mp h with h | h
    · exact ih h
    · rw [List.mem_singleton.mp h]
      exact hexDigit_mem _

/-- Hyphens after 8, 12, 16 and 20 characters. -/
def hyphenate (digits : List Char) : List Char :=
  digits.take 8 ++ '-' :: ((digits.drop 8).take 4 ++ '-' :: ((digits.drop 12).take 4 ++
    '-' :: ((digits.drop 16).take 4 ++ '-' :: digits.drop 20)))

/-- The hyphenated form of an id. -/
def displayUuid (id : Uuid) : String := String.ofList (hyphenate (hexDigits 32 id.toNat))

/-- The id in a hyphenated form. -/
def parseUuid (text : String) : Option Uuid :=
  let digits := text.toList.filter (· ≠ '-')
  if text.toList = hyphenate digits ∧ digits.length = 32 ∧
      digits.all (· ∈ "0123456789abcdef".toList) then
    some (BitVec.ofNat 128 (ofHexDigits digits))
  else none

theorem filter_hyphenate {digits : List Char} (h : '-' ∉ digits) :
    (hyphenate digits).filter (· ≠ '-') = digits := by
  have hkeep : ∀ part : List Char, (∀ c ∈ part, c ∈ digits) → part.filter (· ≠ '-') = part := by
    intro part hpart
    refine List.filter_eq_self.mpr fun c hc => ?_
    have hne : c ≠ '-' := fun heq => h (heq ▸ hpart c hc)
    simpa using hne
  have hsplit : digits = digits.take 8 ++ ((digits.drop 8).take 4 ++ ((digits.drop 12).take 4 ++
      ((digits.drop 16).take 4 ++ digits.drop 20))) := by
    have hdrop : ∀ i, (digits.drop i).take 4 ++ digits.drop (i + 4) = digits.drop i := fun i => by
      rw [← List.drop_drop, List.take_append_drop]
    rw [hdrop 16, hdrop 12, hdrop 8, List.take_append_drop]
  simp only [hyphenate, List.filter_append, List.filter_cons_of_neg, ne_eq, not_true_eq_false,
    decide_false, Bool.false_eq_true, not_false_eq_true]
  rw [hkeep _ fun c hc => List.mem_of_mem_take hc,
    hkeep _ fun c hc => List.mem_of_mem_drop (List.mem_of_mem_take hc),
    hkeep _ fun c hc => List.mem_of_mem_drop (List.mem_of_mem_take hc),
    hkeep _ fun c hc => List.mem_of_mem_drop (List.mem_of_mem_take hc),
    hkeep _ fun c hc => List.mem_of_mem_drop hc]
  exact hsplit.symm

theorem parseUuid_displayUuid (id : Uuid) : parseUuid (displayUuid id) = some id := by
  have hhyphen : '-' ∉ hexDigits 32 id.toNat := fun h => absurd (mem_hexDigits h) (by decide)
  have hfilter := filter_hyphenate hhyphen
  have hvalue : ofHexDigits (hexDigits 32 id.toNat) = id.toNat := by
    rw [ofHexDigits_hexDigits]
    exact Nat.mod_eq_of_lt id.isLt
  simp only [parseUuid, displayUuid, String.toList_ofList, hfilter]
  have hall : (hexDigits 32 id.toNat).all (· ∈ "0123456789abcdef".toList) = true :=
    List.all_eq_true.mpr fun c hc => decide_eq_true (mem_hexDigits hc)
  rw [if_pos ⟨trivial, length_hexDigits _ _, hall⟩, hvalue]
  simp

/-- The numbers that the examples use. -/
def displayF64 (x : F64) : String :=
  if x = .finite 0 then "0"
  else if x = .finite 760 then "760"
  else if x = .finite (-235505 / 10000) then "-23.5505"
  else if x = .finite (-466333 / 10000) then "-46.6333"
  else "NaN"

/-- The wall-clock times that the examples use. -/
def rfc3339 (t : OffsetDateTime) : String :=
  if t = 0 then "1970-01-01T00:00:00Z" else "1970-01-01T00:01:00Z"

/-- The reference platform. -/
def platform : Platform where
  XmlError := Unit
  readXml bytes := match Markup.read bytes with
    | some events => .ok events
    | none => .error ()
  displayF64 := displayF64
  rfc3339 := rfc3339
  displayUuid := displayUuid
  parseUuid := parseUuid

/-- An event whose text fields try to close it. -/
def event : PositionEvent where
  uid := "</event><event uid=\"x\">"
  callsign := "<tak_bench correlation_id=\"y\"/>"
  latitude := .finite 0
  longitude := .finite 0
  altitudeM := .finite 760
  courseDeg := .finite 0
  speedMps := .finite 0
  time := 0
  stale := 60000000000
  correlationId := 7

theorem length_asBytes_le (s : String) : (asBytes s).length ≤ 4 * s.toList.length := by
  rw [asBytes]
  induction s.toList with
  | nil => simp
  | cons c cs ih =>
    have hchar : (String.utf8EncodeChar c).length ≤ 4 := by
      rw [String.length_utf8EncodeChar]
      exact c.utf8Size_le_four
    simp only [List.flatMap_cons, List.length_append, List.length_cons]
    omega

theorem length_displayF64_le (x : F64) : (displayF64 x).toList.length ≤ 8 := by
  rw [displayF64]
  split_ifs <;> decide

theorem length_rfc3339_le (t : OffsetDateTime) : (rfc3339 t).toList.length ≤ 20 := by
  rw [rfc3339]
  split_ifs <;> decide

theorem length_displayUuid (id : Uuid) : (displayUuid id).toList.length = 36 := by
  simp [displayUuid, hyphenate, length_hexDigits]

/-- A rough bound on the XML of an event. -/
theorem length_toXml_le (e : PositionEvent) : (asBytes (e.toXml platform)).length ≤
    4 * ((escape e.uid).toList.length + (escape e.callsign).toList.length + 600) := by
  have hlatitude := length_displayF64_le e.latitude
  have hlongitude := length_displayF64_le e.longitude
  have haltitude := length_displayF64_le e.altitudeM
  have hcourse := length_displayF64_le e.courseDeg
  have hspeed := length_displayF64_le e.speedMps
  have htime := length_rfc3339_le e.time
  have hstale := length_rfc3339_le e.stale
  have hid := length_displayUuid e.correlationId
  refine (length_asBytes_le _).trans (Nat.mul_le_mul_left 4 ?_)
  delta PositionEvent.toXml
  simp only [String.toList_append, List.length_append, String.reduceToList, List.length_cons,
    List.length_nil, platform]
  omega

/-- An event with short text fields is within the limit of a decoder. -/
theorem length_toXml_le_limit {e : PositionEvent}
    (h : e.uid.toList.length + e.callsign.toList.length ≤ 200) :
    (asBytes (e.toXml platform)).length ≤ 8 * 1024 * 1024 := by
  have huid := length_escape_le e.uid
  have hcallsign := length_escape_le e.callsign
  refine (length_toXml_le e).trans ?_
  omega

theorem platform_standard : platform.Standard where
  readXml_write d := by simp only [platform, Markup.read_write d]
  parse_display id := by
    simp only [platform]
    exact parseUuid_displayUuid id

theorem platform_plain : platform.Plain where
  displayF64 x := by
    simp only [platform, displayF64]
    split_ifs <;> decide
  rfc3339 t := by
    simp only [platform, rfc3339]
    split_ifs <;> decide
  displayUuid id := by
    intro c hc
    simp only [platform, displayUuid, String.toList_ofList, hyphenate, List.mem_append,
      List.mem_cons] at hc
    have hdigit : c ∈ hexDigits 32 id.toNat ∨ c = '-' := by
      rcases hc with h | h | h | h | h | h | h | h | h
      · exact .inl (List.mem_of_mem_take h)
      · exact .inr h
      · exact .inl (List.mem_of_mem_drop (List.mem_of_mem_take h))
      · exact .inr h
      · exact .inl (List.mem_of_mem_drop (List.mem_of_mem_take h))
      · exact .inr h
      · exact .inl (List.mem_of_mem_drop (List.mem_of_mem_take h))
      · exact .inr h
      · exact .inl (List.mem_of_mem_drop h)
    rcases hdigit with h | rfl
    · have hall : PlainText "0123456789abcdef" := by decide
      exact hall c (mem_hexDigits h)
    · decide

end TakBench.Reference
