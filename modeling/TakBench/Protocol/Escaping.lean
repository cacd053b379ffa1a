import Mathlib.Data.String.Basic
import TakBench.Library.Substitution

/-!
# Escaping

`escape` replaces one character after the other, and each replacement also sees the entities of the
earlier ones. It starts with `&`, the only character of the five that an entity contains, so that no
entity is escaped again: the result is that of one substitution, and the text can be read back.

## Main definitions

* `escape`: the five replacements
* `entities`: the five characters and their entities
* `substituteEntities`: each character replaced by itself
* `unescape`: the entities read back, from the left

## Main results

* `escape_eq_substituteEntities`: the five replacements are one substitution
* `escape_plain`: an escaped text is free of markup
* `escape_eq_self_iff`: which texts are their own escape
* `escape_faithful`: what an escaped text looks like, and that it can be read back
-/

namespace TakBench

open Substitution

/-- A text without `<`, `>` and `"`. -/
def PlainText (s : String) : Prop := ∀ c ∈ s.toList, c ≠ '<' ∧ c ≠ '>' ∧ c ≠ '"'

instance (s : String) : Decidable (PlainText s) := List.decidableBAll _ _

/-- `str::replace` of one character. -/
def replace (value : String) (c : Char) (entity : String) : String :=
  String.ofList (value.toList.flatMap fun d => if d = c then entity.toList else [d])

/-- The five replacements, one after the other. -/
def escape (value : String) : String :=
  let value := replace value '&' "&amp;"
  let value := replace value '<' "&lt;"
  let value := replace value '>' "&gt;"
  let value := replace value '"' "&quot;"
  replace value '\'' "&apos;"

/-- The characters that are replaced. -/
def escapedChars : List Char := ['&', '<', '>', '"', '\'']

/-- A text without any of them. -/
def Verbatim (s : String) : Prop := ∀ c ∈ s.toList, c ∉ escapedChars

instance (s : String) : Decidable (Verbatim s) := List.decidableBAll _ _

/-! ## One replacement after the other -/

/-- The characters that are replaced, in the order of the replacements, and their entities. -/
def entities : List (Char × List Char) :=
  [('&', "&amp;".toList), ('<', "&lt;".toList), ('>', "&gt;".toList), ('"', "&quot;".toList),
    ('\'', "&apos;".toList)]

/-- Each of the five characters is replaced by its entity, independently of the others. -/
def substituteEntities (value : String) : String :=
  String.ofList (substitute entities value.toList)

theorem map_entities : entities.map Prod.fst = escapedChars := rfl

/-- No entity contains a character that is replaced later. -/
theorem entities_ordered : entities.Pairwise fun entry later => later.1 ∉ entry.2 := by decide

theorem toList_replace (value entity : String) (c : Char) :
    (replace value c entity).toList = substitute [(c, entity.toList)] value.toList := by
  rw [replace, String.toList_ofList, substitute]
  refine List.flatMap_congr fun d _ => ?_
  rw [image, List.lookup_cons]
  by_cases hd : d = c
  · rw [if_pos hd, beq_iff_eq.mpr hd, Option.getD_some]
  · rw [if_neg hd, beq_eq_false_iff_ne.mpr hd]
    rfl

/-- **The five replacements are one substitution.** -/
theorem escape_eq_substituteEntities (value : String) :
    escape value = substituteEntities value := by
  apply String.toList_inj.mp
  rw [substituteEntities, String.toList_ofList, ← foldl_substitute entities_ordered]
  simp only [escape, toList_replace, entities, List.foldl_cons, List.foldl_nil]

theorem toList_escape (value : String) :
    (escape value).toList = substitute entities value.toList := by
  rw [escape_eq_substituteEntities, substituteEntities, String.toList_ofList]

/-! ## What an escaped text looks like -/

/-- No entity contains any of the characters but `&`, which are gone. -/
theorem notMem_escape {c : Char} (hc : c ∈ escapedChars.tail) (value : String) :
    c ∉ (escape value).toList := by
  have hfree : ∀ entry ∈ entities, entry.2.all (· ∉ escapedChars.tail) = true := by decide
  rw [toList_escape]
  apply notMem_substitute
  · rw [map_entities]
    exact List.mem_of_mem_tail hc
  · intro entry hentry hmem
    exact of_decide_eq_true (List.all_eq_true.mp (hfree entry hentry) c hmem) hc

/-- **An escaped text is free of markup.** -/
theorem escape_plain (value : String) : PlainText (escape value) := by
  intro c hc
  refine ⟨?_, ?_, ?_⟩
  · rintro rfl
    exact notMem_escape (by decide) value hc
  · rintro rfl
    exact notMem_escape (by decide) value hc
  · rintro rfl
    exact notMem_escape (by decide) value hc

/-- **Only a verbatim text is its own escape.** -/
theorem escape_eq_self_iff (value : String) : escape value = value ↔ Verbatim value := by
  have hlonger : ∀ entry ∈ entities, 1 < entry.2.length := by decide
  rw [← String.toList_inj, toList_escape, substitute_eq_self_iff hlonger, map_entities, Verbatim]

/-- An entity has at most six characters. -/
theorem length_escape_le (value : String) :
    (escape value).toList.length ≤ 6 * value.toList.length := by
  rw [toList_escape]
  exact length_substitute_le (by decide) (by decide) _

/-! ## Reading back -/

/-- Each entity is replaced by its character, from the left. -/
def unescape (value : String) : String := String.ofList (restore entities value.toList)

/-- No entity starts with another one, and each starts with `&`. -/
theorem entities_readable : Readable entities where
  prefixFree := by decide
  starts := by
    have hstarts : ∀ entry ∈ entities, ['&'] <+: entry.2 := by decide
    intro entry hentry
    exact ⟨'&', by decide, hstarts entry hentry⟩

/-- **Escaping is faithful**: it is one substitution, none of the four characters of markup is left,
each ampersand starts an entity, and the text can be read back. -/
theorem escape_faithful (value : String) :
    escape value = substituteEntities value ∧
    (∀ c ∈ ['<', '>', '"', '\''], c ∉ (escape value).toList) ∧
    (∀ front back, (escape value).toList = front ++ '&' :: back →
      ∃ entity ∈ entities.map Prod.snd, entity <+: '&' :: back) ∧
    unescape (escape value) = value ∧ ∀ other, escape other = escape value → other = value := by
  refine ⟨escape_eq_substituteEntities value, ?_, ?_, ?_, ?_⟩
  · intro c hc
    exact notMem_escape hc value
  · intro front back h
    rw [toList_escape] at h
    obtain ⟨entry, hentry, hpre⟩ := exists_of_substitute_eq (by decide) (by decide) h
    exact ⟨entry.2, List.mem_map_of_mem hentry, hpre⟩
  · rw [unescape, toList_escape, restore_substitute entities_readable, String.ofList_toList]
  · intro other h
    have hlists := congrArg String.toList h
    rw [toList_escape, toList_escape] at hlists
    exact String.toList_inj.mp (substitute_injective entities_readable hlists)

end TakBench
