import Mathlib.Data.List.Infix
import Mathlib.Tactic.Common

/-!
# Substituting texts for symbols

A table gives some symbols a text each. `substitute table xs` puts these texts in the places of the
symbols of `xs`, all at once. One symbol after the other comes to the same, if no text contains a
symbol whose turn comes later. The list can be read back from the result, if no text of the table
starts with another one and each starts with a symbol of the table.

## Main definitions

* `substitute table xs`: the texts in the places of the symbols
* `restore table ys`: reading the texts back, from the left
* `Readable table`: what reading back needs

## Main results

* `foldl_substitute`: one symbol after the other, or all at once
* `substitute_eq_self_iff`: the lists that stay the same
* `notMem_substitute`: a symbol that is in no text is gone
* `exists_of_substitute_eq`: where a symbol comes from that is only in front of the texts
* `restore_substitute`, `substitute_injective`: the list can be read back
-/

namespace Substitution

variable {α : Type*} [DecidableEq α]

/-- The text in the place of a symbol: the first one in the table, or the symbol itself. -/
def image (table : List (α × List α)) (x : α) : List α := (table.lookup x).getD [x]

/-- The texts in the places of the symbols. -/
def substitute (table : List (α × List α)) (xs : List α) : List α := xs.flatMap (image table)

variable {table : List (α × List α)} {x key : α} {text xs ys : List α}

@[simp] theorem substitute_nil : substitute table [] = [] := rfl

@[simp] theorem substitute_cons :
    substitute table (x :: xs) = image table x ++ substitute table xs := rfl

/-- A symbol of the table has a text in it. -/
theorem mem_of_lookup_eq_some (h : table.lookup x = some text) : (x, text) ∈ table := by
  induction table with
  | nil => cases h
  | cons entry table ih =>
    rw [List.lookup_cons] at h
    split at h
    · next hkey =>
      obtain rfl := eq_of_beq hkey
      obtain rfl := Option.some.inj h
      exact List.mem_cons_self
    · exact List.mem_cons_of_mem _ (ih h)

theorem lookup_eq_none_iff : table.lookup x = none ↔ x ∉ table.map Prod.fst := by
  induction table with
  | nil => simp
  | cons entry table ih =>
    rw [List.lookup_cons, List.map_cons, List.mem_cons, not_or]
    split
    · next hkey => simp [eq_of_beq hkey]
    · next hkey => rw [ih, and_iff_right (by simpa using hkey)]

theorem image_of_notMem (h : x ∉ table.map Prod.fst) : image table x = [x] := by
  rw [image, lookup_eq_none_iff.mpr h, Option.getD_none]

/-- What stands in the place of a symbol: its text in the table, or the symbol itself. -/
theorem image_cases (table : List (α × List α)) (x : α) :
    (x, image table x) ∈ table ∨ (x ∉ table.map Prod.fst ∧ image table x = [x]) := by
  cases hlookup : table.lookup x with
  | some text =>
    left
    rw [image, hlookup, Option.getD_some]
    exact mem_of_lookup_eq_some hlookup
  | none =>
    right
    have hkeep := lookup_eq_none_iff.mp hlookup
    exact ⟨hkeep, image_of_notMem hkeep⟩

/-! ## Lists that stay the same -/

theorem substitute_eq_self (h : ∀ x ∈ xs, x ∉ table.map Prod.fst) : substitute table xs = xs := by
  induction xs with
  | nil => rfl
  | cons x xs ih =>
    obtain ⟨hx, hxs⟩ := List.forall_mem_cons.mp h
    rw [substitute_cons, ih hxs, image_of_notMem hx]
    rfl

theorem length_le_substitute (h : ∀ entry ∈ table, 1 < entry.2.length) (xs : List α) :
    xs.length ≤ (substitute table xs).length := by
  induction xs with
  | nil => exact Nat.zero_le _
  | cons x xs ih =>
    have himage : 1 ≤ (image table x).length := by
      rcases image_cases table x with hmem | ⟨-, hself⟩
      · exact (h _ hmem).le
      · rw [hself]
        exact Nat.le_refl 1
    rw [substitute_cons, List.length_append, List.length_cons]
    omega

/-- **A list stays the same** only without the symbols of the table, if the texts are longer. -/
theorem substitute_eq_self_iff (h : ∀ entry ∈ table, 1 < entry.2.length) :
    substitute table xs = xs ↔ ∀ x ∈ xs, x ∉ table.map Prod.fst := by
  refine ⟨fun hself => ?_, substitute_eq_self⟩
  induction xs with
  | nil => simp
  | cons x xs ih =>
    rw [substitute_cons] at hself
    rcases image_cases table x with hmem | ⟨hkeep, himage⟩
    · -- the text would make the list longer
      have hlonger : 1 < (image table x).length := h _ hmem
      have hrest := length_le_substitute h xs
      have hlength := congrArg List.length hself
      rw [List.length_append, List.length_cons] at hlength
      omega
    · rw [himage] at hself
      exact List.forall_mem_cons.mpr ⟨hkeep, ih (List.cons.inj hself).2⟩

/-- The texts bound the result. -/
theorem length_substitute_le {n : ℕ} (hn : 1 ≤ n) (h : ∀ entry ∈ table, entry.2.length ≤ n)
    (xs : List α) : (substitute table xs).length ≤ n * xs.length := by
  induction xs with
  | nil => exact Nat.zero_le _
  | cons x xs ih =>
    have himage : (image table x).length ≤ n := by
      rcases image_cases table x with hmem | ⟨-, hself⟩
      · exact h _ hmem
      · rw [hself]
        exact hn
    rw [substitute_cons, List.length_append, List.length_cons, Nat.mul_add]
    omega

/-! ## One symbol after the other -/

/-- **One more symbol**, if no text so far contains it. -/
theorem substitute_substitute (h : ∀ entry ∈ table, key ∉ entry.2) (xs : List α) :
    substitute [(key, text)] (substitute table xs) = substitute (table ++ [(key, text)]) xs := by
  rw [substitute, substitute, List.flatMap_assoc]
  refine List.flatMap_congr fun x _ => ?_
  change substitute [(key, text)] (image table x) = image (table ++ [(key, text)]) x
  rw [image, image, List.lookup_append]
  cases hlookup : table.lookup x with
  | some earlier =>
    have hfree := h _ (mem_of_lookup_eq_some hlookup)
    refine substitute_eq_self fun y hy => ?_
    rw [List.map_singleton, List.mem_singleton]
    rintro rfl
    exact hfree hy
  | none => exact List.append_nil _

/-- **One symbol after the other, or all at once**: that is the same, if no text contains a symbol
whose turn comes later. -/
theorem foldl_substitute (h : table.Pairwise fun entry later => later.1 ∉ entry.2)
    (xs : List α) :
    table.foldl (fun ys entry => substitute [entry] ys) xs = substitute table xs := by
  induction table using List.reverseRecOn with
  | nil =>
    induction xs with
    | nil => rfl
    | cons x xs ih => exact congrArg (x :: ·) ih
  | append_singleton table entry ih =>
    obtain ⟨hearlier, -, hlater⟩ := List.pairwise_append.mp h
    rw [List.foldl_append, ih hearlier, List.foldl_cons, List.foldl_nil]
    exact substitute_substitute (fun earlier hmem => hlater earlier hmem entry (by simp)) xs

/-! ## The symbols of the result -/

/-- A symbol that is in no text is gone. -/
theorem notMem_substitute (hkey : key ∈ table.map Prod.fst) (h : ∀ entry ∈ table, key ∉ entry.2)
    (xs : List α) : key ∉ substitute table xs := by
  intro hin
  obtain ⟨x, -, hin⟩ := List.mem_flatMap.mp hin
  rcases image_cases table x with hmem | ⟨hkeep, himage⟩
  · exact h _ hmem hin
  · rw [himage, List.mem_singleton] at hin
    exact hkeep (hin ▸ hkey)

/-- **Where a symbol comes from**: if it is in the texts only in front, it starts one of them. -/
theorem exists_of_substitute_eq (hkey : key ∈ table.map Prod.fst)
    (htail : ∀ entry ∈ table, key ∉ entry.2.tail) {front back : List α}
    (h : substitute table xs = front ++ key :: back) :
    ∃ entry ∈ table, entry.2 <+: key :: back := by
  induction xs generalizing front with
  | nil => simp at h
  | cons x xs ih =>
    rw [substitute_cons] at h
    rcases List.append_eq_append_iff.mp h with ⟨rest, -, hrest⟩ | ⟨rest, himage, hrest⟩
    -- it is behind the text of the first symbol
    · exact ih hrest
    · cases rest with
      | nil => exact @ih [] hrest.symm
      | cons r rest =>
        obtain ⟨rfl, hback⟩ := List.cons.inj hrest
        rcases image_cases table x with hmem | ⟨hkeep, hself⟩
        · cases front with
          | nil =>
            refine ⟨_, hmem, ?_⟩
            rw [himage, hback]
            exact ⟨substitute table xs, rfl⟩
          | cons first front =>
            have hinside : key ∈ (image table x).tail := by
              rw [himage]
              exact List.mem_append_right front List.mem_cons_self
            exact absurd hinside (htail _ hmem)
        · -- the first symbol stands for itself, and is not the one that is asked for
          have hx : key ∈ image table x := himage ▸ List.mem_append_right front List.mem_cons_self
          rw [hself, List.mem_singleton] at hx
          exact absurd (hx ▸ hkey) hkeep

/-! ## Reading back -/

/-- No text starts with another one, and each starts with a symbol of the table. -/
structure Readable (table : List (α × List α)) : Prop where
  prefixFree : ∀ entry ∈ table, ∀ other ∈ table, entry.2 <+: other.2 → entry = other
  starts : ∀ entry ∈ table, ∃ key ∈ table.map Prod.fst, [key] <+: entry.2

/-- Each text of the table is read as its symbol, from the left. -/
def restore (table : List (α × List α)) : List α → List α
  | [] => []
  | y :: ys =>
    match table.find? fun entry => entry.2.isPrefixOf (y :: ys) with
    | some entry => entry.1 :: restore table (ys.drop (entry.2.length - 1))
    | none => y :: restore table ys
termination_by ys => ys.length

omit [DecidableEq α] in
/-- Two texts at the front of a list are one entry. -/
theorem Readable.eq_of_prefix (h : Readable table) {entry other : α × List α}
    (hmem : entry ∈ table) (hmem' : other ∈ table) (hpre : entry.2 <+: ys)
    (hpre' : other.2 <+: ys) : entry = other := by
  rcases List.prefix_or_prefix_of_prefix hpre hpre' with hle | hle
  · exact h.prefixFree entry hmem other hmem' hle
  · exact (h.prefixFree other hmem' entry hmem hle).symm

/-- The entry whose text is in front is found. -/
theorem Readable.find?_eq (h : Readable table) {entry : α × List α} (hmem : entry ∈ table)
    (hpre : entry.2 <+: ys) : (table.find? fun other => other.2.isPrefixOf ys) = some entry := by
  cases hfound : table.find? fun other => other.2.isPrefixOf ys with
  | none =>
    exact absurd (List.isPrefixOf_iff_prefix.mpr hpre) (List.find?_eq_none.mp hfound entry hmem)
  | some other =>
    have hother := List.find?_some hfound
    rw [List.isPrefixOf_iff_prefix] at hother
    rw [h.eq_of_prefix (List.mem_of_find?_eq_some hfound) hmem hother hpre]

/-- **The list is read back.** -/
theorem restore_substitute (h : Readable table) (xs : List α) :
    restore table (substitute table xs) = xs := by
  induction xs with
  | nil => rw [substitute_nil, restore]
  | cons x xs ih =>
    rw [substitute_cons]
    rcases image_cases table x with hmem | ⟨hkeep, himage⟩
    · obtain ⟨key, -, rest, htext⟩ := h.starts _ hmem
      change key :: rest = image table x at htext
      have hfind := h.find?_eq hmem (List.prefix_append (image table x) (substitute table xs))
      rw [← htext, List.cons_append] at hfind ⊢
      rw [restore, hfind]
      simp only [List.length_cons, Nat.add_sub_cancel, List.drop_left, ih]
    · -- no text starts with the symbol
      have hnone : (table.find? fun entry =>
          entry.2.isPrefixOf (x :: substitute table xs)) = none := by
        refine List.find?_eq_none.mpr fun entry hmem hpre => ?_
        obtain ⟨key, hkey, rest, hentry⟩ := h.starts entry hmem
        rw [← hentry, List.isPrefixOf_iff_prefix, List.singleton_append,
          List.cons_prefix_cons] at hpre
        exact hkeep (hpre.1 ▸ hkey)
      rw [himage, List.singleton_append, restore, hnone, ih]

/-- **Two lists have two results.** -/
theorem substitute_injective (h : Readable table) : Function.Injective (substitute table) :=
  Function.LeftInverse.injective (restore_substitute h)

end Substitution
