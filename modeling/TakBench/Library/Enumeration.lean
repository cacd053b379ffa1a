import Mathlib.Data.Set.Card

/-!
# Counting by enumeration

A program counts the elements of a set by walking through a list that holds each of them once. The
order of the list does not matter to the count.

## Main definitions

* `Enumerates l s`: the list holds each element of the set once

## Main results

* `Enumerates.countP_eq`: what is counted on the list is the number of elements
* `Enumerates.countP_eq_length_iff`, `Enumerates.countP_eq_zero_iff`: all are counted, or none
-/

variable {α : Type*}

/-- The list holds each element of the set once. -/
structure Enumerates (l : List α) (s : Set α) : Prop where
  nodup : l.Nodup
  mem_iff : ∀ a, a ∈ l ↔ a ∈ s

namespace Enumerates

variable {l : List α} {s t : Set α} {p : α → Bool}

theorem ncard_eq (h : Enumerates l s) : s.ncard = l.length := by
  classical
  have hs : s = l.toFinset := by
    ext a
    rw [Finset.mem_coe, List.mem_toFinset, h.mem_iff]
  rw [hs, Set.ncard_coe_finset, List.toFinset_card_of_nodup h.nodup]

theorem nonempty_iff (h : Enumerates l s) : s.Nonempty ↔ l.isEmpty = false := by
  rw [List.isEmpty_eq_false_iff_exists_mem]
  exact exists_congr fun a => (h.mem_iff a).symm

/-- The elements that pass a test are enumerated by those of the list that do. -/
theorem filter (h : Enumerates l s) (hp : ∀ a ∈ s, p a = true ↔ a ∈ t) :
    Enumerates (l.filter p) (s ∩ t) where
  nodup := h.nodup.filter p
  mem_iff a := by
    rw [List.mem_filter, h.mem_iff]
    exact and_congr_right fun ha => hp a ha

/-- **What is counted on the list** is the number of elements that pass the test. -/
theorem countP_eq (h : Enumerates l s) (hp : ∀ a ∈ s, p a = true ↔ a ∈ t) :
    l.countP p = (s ∩ t).ncard := by
  rw [(h.filter hp).ncard_eq, List.countP_eq_length_filter]

theorem countP_eq_length_iff (h : Enumerates l s) (hp : ∀ a ∈ s, p a = true ↔ a ∈ t) :
    l.countP p = l.length ↔ s ⊆ t := by
  rw [List.countP_eq_length]
  exact forall_congr' fun a => by
    rw [h.mem_iff]
    exact forall_congr' fun ha => hp a ha

theorem countP_eq_zero_iff (h : Enumerates l s) (hp : ∀ a ∈ s, p a = true ↔ a ∈ t) :
    l.countP p = 0 ↔ ∀ a ∈ s, a ∉ t := by
  rw [List.countP_eq_zero]
  exact forall_congr' fun a => by
    rw [h.mem_iff]
    exact forall_congr' fun ha => not_congr (hp a ha)

end Enumerates
