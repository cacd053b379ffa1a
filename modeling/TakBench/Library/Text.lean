import Mathlib.Data.List.DropRight
import Mathlib.Data.List.TakeWhile
import Mathlib.Data.String.Basic
import Mathlib.Tactic.Common

/-!
# Texts that are cut at byte offsets

A text is a list of characters, and an offset in it counts the bytes of the UTF-8 encoding.
`splitAt` cuts a text at an offset and fails past the end and inside a character; `find` gives the
offset of a character; `trim` takes the whitespace off both ends. An offset that was found is good
for a cut, and one that was not found for the whole text is good for no part of it.

## Main definitions

* `find`, `splitAt`: byte offsets
* `isWhitespace`, `trim`

## Main results

* `splitAt_find`: a text is cut at the first character that satisfies a predicate
* `splitAt_eq_none`: an offset past the end cuts nothing
* `utf8Len_trim_eq_iff`: trimming shortens a text, or leaves it alone
-/

namespace Text

open String (utf8Len utf8Len_nil utf8Len_cons utf8Len_append utf8Len_eq_zero)

/-- The offset of the first character that satisfies `p`. -/
def find (p : Char → Bool) : List Char → Option ℕ
  | [] => none
  | c :: cs => if p c then some 0 else (find p cs).map (· + c.utf8Size)

/-- The parts before and from an offset; `none` if it is no boundary of a character. -/
def splitAt : ℕ → List Char → Option (List Char × List Char)
  | 0, cs => some ([], cs)
  | _ + 1, [] => none
  | offset + 1, c :: cs =>
    if c.utf8Size ≤ offset + 1 then
      (splitAt (offset + 1 - c.utf8Size) cs).map fun parts => (c :: parts.1, parts.2)
    else none

/-- The characters with the Unicode property `White_Space`. -/
def isWhitespace (c : Char) : Bool :=
  let n := c.toNat
  (9 ≤ n && n ≤ 13) || n = 32 || n = 0x85 || n = 0xA0 || n = 0x1680 ||
    (0x2000 ≤ n && n ≤ 0x200A) || n = 0x2028 || n = 0x2029 || n = 0x202F || n = 0x205F || n = 0x3000

/-- The text without the whitespace at its ends. -/
def trim (cs : List Char) : List Char := (cs.dropWhile isWhitespace).rdropWhile isWhitespace

variable {p : Char → Bool} {cs : List Char} {offset : ℕ}

/-! ## Cutting -/

/-- A text is cut behind a part of it. -/
theorem splitAt_utf8Len (cs cs' : List Char) :
    splitAt (utf8Len cs) (cs ++ cs') = some (cs, cs') := by
  induction cs with
  | nil => rw [utf8Len_nil, List.nil_append, splitAt]
  | cons c cs ih =>
    have hpos := c.utf8Size_pos
    have hlen : utf8Len (c :: cs) = (utf8Len cs + c.utf8Size - 1) + 1 := by
      rw [utf8Len_cons]
      omega
    have hrest : utf8Len cs + c.utf8Size - 1 + 1 - c.utf8Size = utf8Len cs := by omega
    rw [hlen, List.cons_append, splitAt, if_pos (by omega), hrest, ih, Option.map_some]

/-- An offset past the end cuts nothing. -/
theorem splitAt_eq_none (h : utf8Len cs < offset) : splitAt offset cs = none := by
  induction cs generalizing offset with
  | nil =>
    obtain ⟨n, rfl⟩ := Nat.exists_eq_succ_of_ne_zero (Nat.pos_iff_ne_zero.mp h)
    rfl
  | cons c cs ih =>
    obtain ⟨n, rfl⟩ := Nat.exists_eq_succ_of_ne_zero (Nat.ne_zero_of_lt h)
    rw [utf8Len_cons] at h
    rw [Nat.succ_eq_add_one, splitAt]
    split
    · rw [ih (by omega), Option.map_none]
    · rfl

theorem find_eq_none (h : ∀ c ∈ cs, p c = false) : find p cs = none := by
  induction cs with
  | nil => rfl
  | cons c cs ih =>
    rw [find, if_neg (by simp [h c]), ih fun d hd => h d (List.mem_cons_of_mem c hd),
      Option.map_none]

/-- The first character that satisfies a predicate is behind those that do not. -/
theorem find_eq_some (h : ∃ c ∈ cs, p c = true) :
    find p cs = some (utf8Len (cs.takeWhile fun c => !p c)) := by
  induction cs with
  | nil => simp at h
  | cons c cs ih =>
    by_cases hc : p c = true
    · simp [find, hc]
    · obtain ⟨d, hd, hpd⟩ := h
      rcases List.mem_cons.mp hd with rfl | hd
      · exact absurd hpd hc
      · have hkeep : (c :: cs).takeWhile (fun c => !p c) = c :: cs.takeWhile fun c => !p c :=
          List.takeWhile_cons_of_pos (by simp [hc])
        rw [find, if_neg hc, ih ⟨d, hd, hpd⟩, hkeep, utf8Len_cons, Option.map_some]

/-- **A text is cut at the first character** that satisfies a predicate, or at the end. -/
theorem splitAt_find (h : (∃ c ∈ cs, p c = true) ∨ offset = utf8Len cs) :
    splitAt ((find p cs).getD offset) cs =
      some (cs.takeWhile fun c => !p c, cs.dropWhile fun c => !p c) := by
  by_cases hfound : ∃ c ∈ cs, p c = true
  · rw [find_eq_some hfound, Option.getD_some]
    calc splitAt (utf8Len (cs.takeWhile fun c => !p c)) cs
        = splitAt (utf8Len (cs.takeWhile fun c => !p c))
            ((cs.takeWhile fun c => !p c) ++ cs.dropWhile fun c => !p c) := by
          rw [List.takeWhile_append_dropWhile]
      _ = _ := splitAt_utf8Len _ _
  · have hnone : ∀ c ∈ cs, p c = false := by simpa using hfound
    have hall : ∀ c ∈ cs, (!p c) = true := by simpa using hnone
    rw [find_eq_none hnone, Option.getD_none, h.resolve_left hfound,
      List.takeWhile_eq_self_iff.mpr hall, List.dropWhile_eq_nil_iff.mpr hall]
    calc splitAt (utf8Len cs) cs = splitAt (utf8Len cs) (cs ++ []) := by rw [List.append_nil]
      _ = some (cs, []) := splitAt_utf8Len _ _

/-! ## Trimming -/

theorem trim_infix (cs : List Char) : trim cs <:+: cs :=
  List.infix_iff_prefix_suffix.mpr ⟨_, List.rdropWhile_prefix _ _, List.dropWhile_suffix _⟩

/-- A text without whitespace is left alone. -/
theorem trim_eq_self (h : ∀ c ∈ cs, isWhitespace c = false) : trim cs = cs := by
  have hfront : cs.dropWhile isWhitespace = cs := by
    rw [List.dropWhile_eq_self_iff]
    intro hpos
    simp [h _ (List.getElem_mem hpos)]
  rw [trim, hfront, List.rdropWhile_eq_self_iff]
  intro hne
  simp [h _ (List.getLast_mem hne)]

/-- **Trimming shortens a text, or leaves it alone.** -/
theorem utf8Len_trim_eq_iff : utf8Len (trim cs) = utf8Len cs ↔ trim cs = cs := by
  refine ⟨fun h => ?_, fun h => by rw [h]⟩
  obtain ⟨front, back, happend⟩ := trim_infix cs
  have hlen := congrArg utf8Len happend
  rw [utf8Len_append, utf8Len_append] at hlen
  have hfront : front = [] := utf8Len_eq_zero.mp (by omega)
  have hback : back = [] := utf8Len_eq_zero.mp (by omega)
  rwa [hfront, hback, List.nil_append, List.append_nil] at happend

end Text
