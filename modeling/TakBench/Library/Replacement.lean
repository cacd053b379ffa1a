import Mathlib.Data.List.Forall2
import Mathlib.Data.List.Infix
import Mathlib.Tactic.Common

/-!
# Replacing a pattern in a list

`Replaces pattern text xs ys` says that `ys` is `xs` with `text` in place of each occurrence of
`pattern`, taken from the left and without overlap. Two texts put in place of a pattern that occurs
give two results, however often it occurs; and the parts between separators are replaced one by
one, if neither the pattern nor the text has a separator in it.

## Main definitions

* `Replaces pattern text xs ys`

## Main results

* `Replaces.injective`: the text can be told from the result
* `Replaces.splitOn`: the parts between separators are replaced one by one
* `Replaces.eq_of_not_infix`, `Replaces.text_infix`: parts without and with an occurrence
-/

variable {α : Type*}

/-- Each occurrence of the pattern is replaced, from the left. -/
inductive Replaces (pattern text : List α) : List α → List α → Prop
  | nil : Replaces pattern text [] []
  | keep (x : α) {xs ys : List α} (h : ¬ pattern <+: x :: xs)
      (rest : Replaces pattern text xs ys) : Replaces pattern text (x :: xs) (x :: ys)
  | replace {xs ys : List α} (rest : Replaces pattern text xs ys) :
      Replaces pattern text (pattern ++ xs) (text ++ ys)

namespace Replaces

variable {pattern text text' xs ys ys' zs : List α} {x : α}

/-- Where a replacement starts. -/
theorem inversion (h : Replaces pattern text zs ys) :
    (zs = [] ∧ ys = []) ∨
    (∃ x xs ys', zs = x :: xs ∧ ys = x :: ys' ∧ ¬ pattern <+: zs ∧ Replaces pattern text xs ys') ∨
    ∃ xs ys', zs = pattern ++ xs ∧ ys = text ++ ys' ∧ Replaces pattern text xs ys' := by
  cases h with
  | nil => exact .inl ⟨rfl, rfl⟩
  | keep x h rest => exact .inr (.inl ⟨x, _, _, rfl, rfl, h, rest⟩)
  | replace rest => exact .inr (.inr ⟨_, _, rfl, rfl, rest⟩)

theorem of_keep (hpre : ¬ pattern <+: x :: xs) (h : Replaces pattern text (x :: xs) ys) :
    ∃ ys', ys = x :: ys' ∧ Replaces pattern text xs ys' := by
  rcases h.inversion with ⟨hzs, -⟩ | ⟨x', xs', ys', hzs, rfl, -, rest⟩ | ⟨xs', ys', hzs, -⟩
  · cases hzs
  · obtain ⟨rfl, rfl⟩ := List.cons.inj hzs
    exact ⟨ys', rfl, rest⟩
  · exact absurd ⟨xs', hzs.symm⟩ hpre

theorem of_replace (hpattern : pattern ≠ []) (h : Replaces pattern text (pattern ++ xs) ys) :
    ∃ ys', ys = text ++ ys' ∧ Replaces pattern text xs ys' := by
  rcases h.inversion with ⟨hzs, -⟩ | ⟨x, xs', ys', -, -, hpre, -⟩ | ⟨xs', ys', hzs, rfl, rest⟩
  · exact absurd (List.append_eq_nil_iff.mp hzs).1 hpattern
  · exact absurd (List.prefix_append pattern xs) hpre
  · rw [List.append_cancel_left hzs]
    exact ⟨ys', rfl, rest⟩

/-! ## The text can be told from the result -/

theorem length_le (hpattern : pattern ≠ []) (h : Replaces pattern text xs ys)
    (h' : Replaces pattern text' xs ys') (hle : text.length ≤ text'.length) :
    ys.length ≤ ys'.length := by
  induction h generalizing ys' with
  | nil => exact Nat.zero_le _
  | keep x hpre _ ih =>
    obtain ⟨ys', rfl, rest'⟩ := h'.of_keep hpre
    exact Nat.succ_le_succ (ih rest')
  | replace _ ih =>
    obtain ⟨ys', rfl, rest'⟩ := h'.of_replace hpattern
    rw [List.length_append, List.length_append]
    exact Nat.add_le_add hle (ih rest')

/-- A longer text makes the result longer, if the pattern occurs. -/
theorem length_lt (hpattern : pattern ≠ []) (h : Replaces pattern text xs ys)
    (h' : Replaces pattern text' xs ys') (hlt : text.length < text'.length)
    (hoccurs : pattern <:+: xs) : ys.length < ys'.length := by
  induction h generalizing ys' with
  | nil => exact absurd (List.infix_nil.mp hoccurs) hpattern
  | keep x hpre _ ih =>
    obtain ⟨ys', rfl, rest'⟩ := h'.of_keep hpre
    exact Nat.succ_lt_succ (ih rest' ((List.infix_cons_iff.mp hoccurs).resolve_left hpre))
  | replace rest _ =>
    obtain ⟨ys', rfl, rest'⟩ := h'.of_replace hpattern
    rw [List.length_append, List.length_append]
    exact Nat.add_lt_add_of_lt_of_le hlt (length_le hpattern rest rest' hlt.le)

theorem eq_of_length_eq (hpattern : pattern ≠ []) (h : Replaces pattern text xs ys)
    (h' : Replaces pattern text' xs ys) (hlength : text.length = text'.length)
    (hoccurs : pattern <:+: xs) : text = text' := by
  induction h with
  | nil => exact absurd (List.infix_nil.mp hoccurs) hpattern
  | keep x hpre _ ih =>
    obtain ⟨ys', hys, rest'⟩ := h'.of_keep hpre
    obtain ⟨-, rfl⟩ := List.cons.inj hys
    exact ih rest' ((List.infix_cons_iff.mp hoccurs).resolve_left hpre)
  | replace _ _ =>
    obtain ⟨ys', hys, -⟩ := h'.of_replace hpattern
    exact (List.append_inj hys hlength).1

/-- **The text can be told from the result**, if the pattern occurs. -/
theorem injective (hpattern : pattern ≠ []) (hoccurs : pattern <:+: xs)
    (h : Replaces pattern text xs ys) (h' : Replaces pattern text' xs ys) : text = text' := by
  rcases Nat.lt_trichotomy text.length text'.length with hlt | heq | hgt
  · exact absurd (length_lt hpattern h h' hlt hoccurs) (Nat.lt_irrefl _)
  · exact eq_of_length_eq hpattern h h' heq hoccurs
  · exact absurd (length_lt hpattern h' h hgt hoccurs) (Nat.lt_irrefl _)

/-! ## Parts with and without an occurrence -/

/-- Without an occurrence nothing changes. -/
theorem eq_of_not_infix (h : Replaces pattern text xs ys) (hnone : ¬ pattern <:+: xs) :
    ys = xs := by
  induction h with
  | nil => rfl
  | keep x _ _ ih =>
    rw [ih fun hoccurs => hnone (List.infix_cons hoccurs)]
  | replace _ _ => exact absurd (List.prefix_append _ _).isInfix hnone

/-- With an occurrence the text stands in the result. -/
theorem text_infix (hpattern : pattern ≠ []) (h : Replaces pattern text xs ys)
    (hoccurs : pattern <:+: xs) : text <:+: ys := by
  induction h with
  | nil => exact absurd (List.infix_nil.mp hoccurs) hpattern
  | keep x hpre _ ih =>
    exact List.infix_cons (ih ((List.infix_cons_iff.mp hoccurs).resolve_left hpre))
  | replace _ _ => exact (List.prefix_append _ _).isInfix

/-! ## Separators -/

section Separator

variable [DecidableEq α] {separator : α}

theorem splitOn_append {us : List α} (hus : separator ∉ us) (xs : List α) :
    (us ++ xs).splitOn separator = (xs.splitOn separator).modifyHead (us ++ ·) := by
  induction us with
  | nil => cases h : xs.splitOn separator <;> simp [h]
  | cons u us ih =>
    rw [List.mem_cons, not_or] at hus
    rw [List.cons_append, List.splitOn_cons_eq_if_modifyHead, if_neg (by simpa using Ne.symm hus.1),
      ih hus.2, List.modifyHead_modifyHead]
    rfl

/-- The first part stands in front. -/
theorem prefix_of_splitOn {part : List α} {parts : List (List α)}
    (h : xs.splitOn separator = part :: parts) : part <+: xs := by
  have hjoin : [separator].intercalate (xs.splitOn separator) = xs :=
    List.intercalate_splitOn separator
  rw [h] at hjoin
  cases parts with
  | nil => simp [← hjoin]
  | cons next parts => exact ⟨_, by rw [← hjoin, List.intercalate_cons_cons, List.append_assoc]⟩

/-- **The parts between separators are replaced one by one.** -/
theorem splitOn (hpattern : separator ∉ pattern) (htext : separator ∉ text)
    (h : Replaces pattern text xs ys) :
    List.Forall₂ (Replaces pattern text) (xs.splitOn separator) (ys.splitOn separator) := by
  induction h with
  | nil => exact .cons .nil .nil
  | @keep x xs ys hpre _ ih =>
    rw [List.splitOn_cons_eq_if_modifyHead, List.splitOn_cons_eq_if_modifyHead]
    split
    · exact .cons .nil ih
    · cases hxs : xs.splitOn separator with
      | nil => exact absurd hxs (List.splitOn_ne_nil _ _)
      | cons part parts =>
        -- an occurrence at the front of the part would be one at the front of the list
        have hpart : ¬ pattern <+: x :: part := fun hp =>
          hpre (hp.trans (List.prefix_cons_inj x |>.mpr (prefix_of_splitOn hxs)))
        rw [hxs] at ih
        cases hys : ys.splitOn separator with
        | nil => exact absurd hys (List.splitOn_ne_nil _ _)
        | cons part' parts' =>
          rw [hys] at ih
          cases ih with
          | cons hfirst hlater => exact .cons (.keep x hpart hfirst) hlater
  | @replace xs ys _ ih =>
    rw [splitOn_append hpattern, splitOn_append htext]
    cases hxs : xs.splitOn separator with
    | nil => exact absurd hxs (List.splitOn_ne_nil _ _)
    | cons part parts =>
      rw [hxs] at ih
      cases hys : ys.splitOn separator with
      | nil => exact absurd hys (List.splitOn_ne_nil _ _)
      | cons part' parts' =>
        rw [hys] at ih
        cases ih with
        | cons hfirst hlater => exact .cons (.replace hfirst) hlater

end Separator

end Replaces
