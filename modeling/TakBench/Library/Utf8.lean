import Mathlib.Data.List.Basic
import Mathlib.Tactic.Common

/-!
# UTF-8 bytes of a string, and their lossy decoding

`asBytes s` is the UTF-8 encoding of a string. `fromUtf8Lossy` decodes any byte list: every
maximal invalid piece becomes one replacement character.

## Main definitions

* `asBytes s`: the bytes of a string
* `fromUtf8Lossy bytes`: the lossy decoding

## Main results

* `fromUtf8Lossy_asBytes`: decoding the bytes of a string gives the string back
* `exists_char_of_mem_asBytes`: an ASCII byte of a string is one of its characters
-/

namespace Utf8

/-- The UTF-8 encoding of a string. -/
def asBytes (s : String) : List UInt8 := s.toList.flatMap String.utf8EncodeChar

@[simp] theorem asBytes_append (s t : String) : asBytes (s ++ t) = asBytes s ++ asBytes t := by
  simp [asBytes]

theorem length_asBytes (s : String) : (asBytes s).length = s.utf8ByteSize := by
  rw [← String.size_toByteArray, ← String.utf8Encode_toList, List.utf8Encode,
    List.size_toByteArray, asBytes]

/-- May `second` follow the first byte of a three or four byte sequence? -/
def continues (first second : UInt8) : Bool :=
  if first = 0xE0 then 0xA0 ≤ second && second ≤ 0xBF
  else if first = 0xED then 0x80 ≤ second && second ≤ 0x9F
  else if 0xE1 ≤ first && first ≤ 0xEF then 0x80 ≤ second && second ≤ 0xBF
  else if first = 0xF0 then 0x90 ≤ second && second ≤ 0xBF
  else if 0xF1 ≤ first && first ≤ 0xF3 then 0x80 ≤ second && second ≤ 0xBF
  else if first = 0xF4 then 0x80 ≤ second && second ≤ 0x8F
  else false

/-- The length of the maximal invalid piece at the front of bytes that decode to no character. -/
def invalidLength : List UInt8 → ℕ
  | first :: second :: rest =>
    if continues first second then
      match rest with
      | third :: _ => if 0xF0 ≤ first && 0x80 ≤ third && third ≤ 0xBF then 3 else 2
      | [] => 2
    else 1
  | _ => 1

theorem invalidLength_pos (bytes : List UInt8) : 0 < invalidLength bytes := by
  unfold invalidLength
  split
  · split
    · split
      · split <;> omega
      · omega
    · omega
  · omega

/-- The characters of a byte list, with a replacement character for each invalid piece. -/
def decodeLossy : List UInt8 → List Char
  | [] => []
  | b :: rest =>
    match (b :: rest).toByteArray.utf8DecodeChar? 0 with
    | some c => c :: decodeLossy ((b :: rest).drop c.utf8Size)
    | none => '\uFFFD' :: decodeLossy ((b :: rest).drop (invalidLength (b :: rest)))
termination_by bytes => bytes.length
decreasing_by
  · have := Char.utf8Size_pos c
    rw [List.length_drop, List.length_cons]
    omega
  · have := invalidLength_pos (b :: rest)
    rw [List.length_drop, List.length_cons]
    omega

/-- `String::from_utf8_lossy`. -/
def fromUtf8Lossy (bytes : List UInt8) : String := String.ofList (decodeLossy bytes)

theorem decodeLossy_encode_append (c : Char) (rest : List UInt8) :
    decodeLossy (String.utf8EncodeChar c ++ rest) = c :: decodeLossy rest := by
  have hdecode : (String.utf8EncodeChar c ++ rest).toByteArray.utf8DecodeChar? 0 = some c := by
    rw [List.toByteArray_append]
    exact ByteArray.utf8DecodeChar?_utf8EncodeChar_append
  cases hbytes : String.utf8EncodeChar c ++ rest with
  | nil => exact absurd (List.append_eq_nil_iff.mp hbytes).1 String.utf8EncodeChar_ne_nil
  | cons b tail =>
    rw [decodeLossy, ← hbytes, hdecode]
    simp [List.drop_left']

theorem decodeLossy_flatMap (cs : List Char) :
    decodeLossy (cs.flatMap String.utf8EncodeChar) = cs := by
  induction cs with
  | nil => simp [decodeLossy]
  | cons c cs ih => rw [List.flatMap_cons, decodeLossy_encode_append, ih]

/-- Decoding the bytes of a string gives the string back. -/
@[simp] theorem fromUtf8Lossy_asBytes (s : String) : fromUtf8Lossy (asBytes s) = s := by
  rw [fromUtf8Lossy, asBytes, decodeLossy_flatMap, String.ofList_toList]

theorem asBytes_injective : Function.Injective asBytes :=
  Function.LeftInverse.injective fromUtf8Lossy_asBytes

/-- An ASCII byte in the encoding of a character is the character itself. -/
theorem toNat_eq_of_mem_utf8EncodeChar {c : Char} {b : UInt8} (hb : b.toNat < 128)
    (h : b ∈ String.utf8EncodeChar c) : b.toNat = c.toNat := by
  unfold String.utf8EncodeChar at h
  simp only at h
  split_ifs at h with h₁ h₂ h₃ <;>
    simp only [List.mem_cons, List.not_mem_nil, or_false] at h
  · subst h
    simp only [UInt8.toNat_ofNat']
    change c.toNat ≤ 127 at h₁
    change c.toNat % 2 ^ 8 = c.toNat
    omega
  all_goals
    rcases h with rfl | rfl | rfl | rfl <;>
      simp only [UInt8.toNat_ofNat'] at hb <;> omega

/-- An ASCII byte of a string is one of its characters. -/
theorem exists_char_of_mem_asBytes {s : String} {b : UInt8} (hb : b.toNat < 128)
    (h : b ∈ asBytes s) : ∃ c ∈ s.toList, c.toNat = b.toNat := by
  obtain ⟨c, hc, hbc⟩ := List.mem_flatMap.mp h
  exact ⟨c, hc, (toNat_eq_of_mem_utf8EncodeChar hb hbc).symm⟩

end Utf8
