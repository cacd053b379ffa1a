import Mathlib.Data.List.Infix
import Mathlib.Tactic.Common

/-!
# The first occurrence of a pattern in a list

`position pat xs` is the offset of the first occurrence of `pat` in `xs`. An incremental
search sees its input in pieces, so the lemmas say how the position moves when the list is
extended on the right, when a front part free of occurrences is dropped, and when a list free of
occurrences is glued to one that starts with the pattern.

## Main definitions

* `position pat xs`: the offset of the first occurrence

## Main results

* `position_eq_some_iff`, `position_eq_none_iff`: the position is the least offset of an
  occurrence
* `position_append_of_some`: an occurrence found stays the first one when input arrives
* `position_drop`: dropping a front without occurrences shifts the position
* `position_glue`: no occurrence straddles into a pattern that begins with a fresh symbol
-/

namespace Search

variable {α : Type*} [DecidableEq α]

/-- The offset of the first occurrence of `pat`. -/
def position (pat : List α) : List α → Option ℕ
  | [] => if pat = [] then some 0 else none
  | x :: xs => if pat <+: x :: xs then some 0 else (position pat xs).map (· + 1)

variable {pat xs ys : List α} {i k : ℕ}

theorem position_eq_some_iff :
    position pat xs = some i ↔ pat <+: xs.drop i ∧ ∀ j < i, ¬ pat <+: xs.drop j := by
  induction xs generalizing i with
  | nil =>
    by_cases hp : pat = []
    · subst hp
      simp only [position, if_true, Option.some.injEq, List.nil_prefix, not_true, true_and]
      constructor
      · rintro rfl j hj
        omega
      · intro h
        by_contra hi
        exact h 0 (by omega)
    · simp [position, hp]
  | cons x xs ih =>
    by_cases hp : pat <+: x :: xs
    · rw [position, if_pos hp]
      constructor
      · rintro ⟨⟩
        exact ⟨by simpa using hp, fun j hj => absurd hj (Nat.not_lt_zero j)⟩
      · rintro ⟨-, hj⟩
        by_contra hi
        exact hj 0 (Nat.pos_of_ne_zero fun h => hi (by rw [h])) (by simpa using hp)
    · rw [position, if_neg hp]
      -- the occurrence is one of the tail, shifted by one
      cases i with
      | zero => simp [hp]
      | succ i =>
        simp only [Option.map_eq_some_iff, Nat.add_right_cancel_iff, exists_eq_right, ih,
          List.drop_succ_cons]
        refine and_congr_right fun _ => ⟨fun h j hj => ?_, fun h j hj => ?_⟩
        · cases j with
          | zero => simpa using hp
          | succ j => simpa using h j (by omega)
        · simpa using h (j + 1) (by omega)

theorem position_eq_none_iff : position pat xs = none ↔ ∀ i, ¬ pat <+: xs.drop i := by
  induction xs with
  | nil => by_cases hp : pat = [] <;> simp [position, hp]
  | cons x xs ih =>
    by_cases hp : pat <+: x :: xs
    · rw [position, if_pos hp]
      simp only [reduceCtorEq, false_iff, not_forall, not_not]
      exact ⟨0, by simpa using hp⟩
    · rw [position, if_neg hp, Option.map_eq_none_iff, ih]
      refine ⟨fun h i => ?_, fun h i => by simpa using h (i + 1)⟩
      cases i with
      | zero => simpa using hp
      | succ i => simpa using h i

/-- Where no position is found, the pattern does not occur. -/
theorem not_infix_of_position (h : position pat xs = none) : ¬ pat <:+: xs := by
  rintro ⟨front, back, rfl⟩
  refine position_eq_none_iff.mp h front.length ?_
  rw [List.append_assoc, List.drop_left]
  exact List.prefix_append _ _

/-- The occurrence found ends inside the list. -/
theorem add_length_le_of_position (h : position pat xs = some i) :
    i + pat.length ≤ xs.length ∨ pat = [] := by
  by_cases hp : pat = []
  · exact .inr hp
  · have hle := (position_eq_some_iff.mp h).1.length_le
    have hpos : 0 < pat.length := List.length_pos_iff.mpr hp
    rw [List.length_drop] at hle
    exact .inl (by omega)

omit [DecidableEq α] in
/-- An occurrence in `xs ++ ys` that ends inside `xs` is one in `xs`. -/
theorem prefix_drop_of_append (h : pat <+: (xs ++ ys).drop k)
    (hk : k + pat.length ≤ xs.length) : pat <+: xs.drop k := by
  rw [List.drop_append_of_le_length (by omega)] at h
  exact List.prefix_of_prefix_length_le h (List.prefix_append _ _) (by simp; omega)

omit [DecidableEq α] in
theorem prefix_drop_append (h : pat <+: xs.drop k) (hk : k ≤ xs.length) :
    pat <+: (xs ++ ys).drop k := by
  rw [List.drop_append_of_le_length hk]
  exact h.trans (List.prefix_append _ _)

/-- **An occurrence found stays the first one** when more input arrives. -/
theorem position_append_of_some (ys : List α) (h : position pat xs = some i) :
    position pat (xs ++ ys) = some i := by
  rcases add_length_le_of_position h with hle | rfl
  · obtain ⟨hi, hj⟩ := position_eq_some_iff.mp h
    refine position_eq_some_iff.mpr ⟨prefix_drop_append hi (by omega), fun j hji hp => ?_⟩
    exact hj j hji (prefix_drop_of_append hp (by omega))
  · obtain ⟨-, hj⟩ := position_eq_some_iff.mp h
    refine position_eq_some_iff.mpr ⟨List.nil_prefix, fun j hji => ?_⟩
    exact absurd List.nil_prefix (hj j hji)

/-- Dropping a front in which no occurrence starts shifts the position. -/
theorem position_drop (h : ∀ j < k, ¬ pat <+: xs.drop j) :
    position pat xs = (position pat (xs.drop k)).map (· + k) := by
  cases hp : position pat (xs.drop k) with
  | none =>
    refine position_eq_none_iff.mpr fun i hi => ?_
    by_cases hik : i < k
    · exact h i hik hi
    · refine position_eq_none_iff.mp hp (i - k) ?_
      rwa [List.drop_drop, show k + (i - k) = i by omega]
  | some i =>
    obtain ⟨hi, hj⟩ := position_eq_some_iff.mp hp
    rw [List.drop_drop] at hi
    rw [Option.map_some]
    refine position_eq_some_iff.mpr ⟨by rwa [Nat.add_comm], fun j hji hpj => ?_⟩
    by_cases hjk : j < k
    · exact h j hjk hpj
    · refine hj (j - k) (by omega) ?_
      rwa [List.drop_drop, show k + (j - k) = j by omega]

/-- The first occurrence is at offset zero exactly when the list starts with the pattern. -/
theorem position_eq_zero_iff : position pat xs = some 0 ↔ pat <+: xs := by
  simp [position_eq_some_iff]

/-- After the front before the first occurrence is dropped, the list starts with the pattern. -/
theorem prefix_of_position (h : position pat xs = some i) : pat <+: xs.drop i :=
  (position_eq_some_iff.mp h).1

/-- **No straddling**: if the first symbol of the pattern occurs in it only once, a list without
occurrences glued to an occurrence has its first occurrence at the seam. -/
theorem position_glue {p : α} {tail : List α} (hp : p ∉ tail)
    (h : position (p :: tail) xs = none) (hy : p :: tail <+: ys) :
    position (p :: tail) (xs ++ ys) = some xs.length := by
  refine position_eq_some_iff.mpr ⟨by simpa using hy, fun j hj hpre => ?_⟩
  by_cases hfit : j + (p :: tail).length ≤ xs.length
  · exact position_eq_none_iff.mp h j (prefix_drop_of_append hpre hfit)
  -- the occurrence would run over the seam, where the pattern's first symbol stands
  · obtain ⟨rest, hrest⟩ := hpre
    obtain ⟨rest', hy⟩ := hy
    have hseam : (xs ++ ys)[xs.length]? = some p := by simp [← hy]
    have hinner : (xs ++ ys)[xs.length]? = (p :: tail)[xs.length - j]? := by
      have hlt : xs.length - j < (p :: tail).length := by omega
      have happ : (p :: tail ++ rest)[xs.length - j]? = (p :: tail)[xs.length - j]? :=
        List.getElem?_append_left hlt
      rw [← happ, hrest, List.getElem?_drop]
      congr 1
      omega
    rw [hseam, show xs.length - j = xs.length - j - 1 + 1 by omega, List.getElem?_cons_succ]
      at hinner
    exact hp (List.mem_of_getElem? hinner.symm)

end Search
