import Mathlib.Data.List.Basic
import Mathlib.Tactic.Common

/-!
# Records as lines of JSON

A flat record is a list of members, each with a name and a text. It is written as an object of
JSON, on a line of its own. When no text contains a quote, the object is split at its quotes into
the pieces that it was made of, and the lines of a text are split at their ends; so the records are
read back.

## Main definitions

* `Records.object`, `Records.unlines`: a record as an object, and a list of lines as a text
* `Records.readObject`, `Records.lines`: the way back

## Main results

* `Records.readObject_object`: a record is read back
* `Records.lines_unlines`: the lines are read back
-/

namespace Records

/-! ## Objects -/

/-- A member of a record. -/
abbrev Member := List Char × List Char

/-- A text between quotes, as it is. -/
def quote (text : List Char) : List Char := '"' :: (text ++ ['"'])

section Object

variable (string : List Char → List Char)

/-- A member of an object; `string` writes a text. -/
def member (m : Member) : List Char := string m.1 ++ ':' :: string m.2

/-- The members of an object, up to its end. -/
def members : List Member → List Char
  | [] => ['}']
  | [m] => member string m ++ ['}']
  | m :: rest => member string m ++ ',' :: members rest

/-- A record as an object. -/
def object (record : List Member) : List Char := '{' :: members string record

end Object

/-- The members, from the pieces between the quotes behind the opening brace. -/
def readMembers : List (List Char) → Option (List Member)
  | [name, [':'], text, ['}']] => some [(name, text)]
  | name :: [':'] :: text :: [','] :: pieces =>
    (readMembers pieces).map fun record => (name, text) :: record
  | _ => none

/-- The record of an object with members. -/
def readObject (line : List Char) : Option (List Member) :=
  match line.splitOn '"' with
  | ['{'] :: pieces => readMembers pieces
  | _ => none

/-- The pieces of an object behind its opening brace. -/
def pieces : List Member → List (List Char)
  | [] => []
  | [m] => [m.1, [':'], m.2, ['}']]
  | m :: rest => m.1 :: [':'] :: m.2 :: [','] :: pieces rest

/-- No member contains a quote. -/
def Unquoted (record : List Member) : Prop := ∀ m ∈ record, '"' ∉ m.1 ∧ '"' ∉ m.2

variable {record rest : List Member} {m m' : Member}

theorem members_cons_cons (string : List Char → List Char) :
    members string (m :: m' :: rest) = member string m ++ ',' :: members string (m' :: rest) := rfl

theorem pieces_cons_cons :
    pieces (m :: m' :: rest) = m.1 :: [':'] :: m.2 :: [','] :: pieces (m' :: rest) := rfl

/-- Only how the texts of the record are written matters. -/
theorem object_congr {string string' : List Char → List Char}
    (h : ∀ m ∈ record, string m.1 = string' m.1 ∧ string m.2 = string' m.2) :
    object string record = object string' record := by
  have hmembers : members string record = members string' record := by
    induction record with
    | nil => rfl
    | cons m rest ih =>
      obtain ⟨hm, hrest⟩ := List.forall_mem_cons.mp h
      have hmember : member string m = member string' m := by rw [member, member, hm.1, hm.2]
      cases rest with
      | nil => exact congrArg (· ++ ['}']) hmember
      | cons m' rest => rw [members_cons_cons, members_cons_cons, hmember, ih hrest]
  rw [object, object, hmembers]

/-- What holds of the punctuation and of the texts of a record, holds of its object. -/
theorem forall_mem_object {p : Char → Prop} (hpunctuation : ∀ c ∈ ['{', '}', '"', ':', ','], p c)
    (h : ∀ m ∈ record, (∀ c ∈ m.1, p c) ∧ ∀ c ∈ m.2, p c) : ∀ c ∈ object quote record, p c := by
  have hquote : ∀ text : List Char, (∀ c ∈ text, p c) → ∀ c ∈ quote text, p c := by
    intro text htext c hc
    simp only [quote, List.mem_cons, List.mem_append, List.not_mem_nil, or_false] at hc
    rcases hc with rfl | hc | rfl
    · exact hpunctuation _ (by simp)
    · exact htext c hc
    · exact hpunctuation _ (by simp)
  have hmember : ∀ m ∈ record, ∀ c ∈ member quote m, p c := by
    intro m hm c hc
    rcases List.mem_append.mp hc with hc | hc
    · exact hquote _ (h m hm).1 c hc
    · rcases List.mem_cons.mp hc with rfl | hc
      · exact hpunctuation _ (by simp)
      · exact hquote _ (h m hm).2 c hc
  have hmembers : ∀ c ∈ members quote record, p c := by
    clear h
    induction record with
    | nil =>
      intro c hc
      exact hpunctuation c (by simp [List.mem_singleton.mp hc])
    | cons m rest ih =>
      obtain ⟨hm, hrest⟩ := List.forall_mem_cons.mp hmember
      cases rest with
      | nil =>
        intro c hc
        rcases List.mem_append.mp hc with hc | hc
        · exact hm c hc
        · exact hpunctuation c (by simp [List.mem_singleton.mp hc])
      | cons m' rest =>
        intro c hc
        rw [members_cons_cons, List.mem_append, List.mem_cons] at hc
        rcases hc with hc | rfl | hc
        · exact hm c hc
        · exact hpunctuation _ (by simp)
        · exact ih hrest c hc
  intro c hc
  rcases List.mem_cons.mp hc with rfl | hc
  · exact hpunctuation _ (by simp)
  · exact hmembers c hc

theorem pieces_ne_nil (h : record ≠ []) : pieces record ≠ [] := by
  cases record with
  | nil => exact absurd rfl h
  | cons m rest => cases rest <;> simp [pieces]

/-- An object is its pieces, with quotes between them. -/
theorem quote_members (h : record ≠ []) :
    '"' :: List.intercalate ['"'] (pieces record) = members quote record := by
  induction record with
  | nil => exact absurd rfl h
  | cons m rest ih =>
    cases rest with
    | nil => simp [pieces, members, member, quote, List.intercalate]
    | cons m' rest =>
      have hrest := ih (by simp)
      obtain ⟨piece, tail, hpieces⟩ := List.exists_cons_of_ne_nil
        (@pieces_ne_nil (m' :: rest) (by simp))
      rw [members_cons_cons, ← hrest, pieces_cons_cons, hpieces]
      simp [member, quote, List.intercalate]

theorem readMembers_pieces (h : record ≠ []) : readMembers (pieces record) = some record := by
  induction record with
  | nil => exact absurd rfl h
  | cons m rest ih =>
    cases rest with
    | nil => rfl
    | cons m' rest =>
      have hrest := ih (by simp)
      rw [pieces_cons_cons, readMembers, hrest]
      rfl

theorem notMem_pieces (h : Unquoted record) : ∀ piece ∈ pieces record, '"' ∉ piece := by
  induction record with
  | nil => simp [pieces]
  | cons m rest ih =>
    obtain ⟨hm, hrest⟩ := List.forall_mem_cons.mp h
    cases rest with
    | nil => simp [pieces, hm.1, hm.2]
    | cons m' rest =>
      have htail := ih hrest
      intro piece hpiece
      rw [pieces_cons_cons] at hpiece
      simp only [List.mem_cons] at hpiece
      rcases hpiece with rfl | rfl | rfl | rfl | hpiece
      · exact hm.1
      · simp
      · exact hm.2
      · simp
      · exact htail piece hpiece

/-- **A record is read back**, if no member contains a quote. -/
theorem readObject_object (h : record ≠ []) (hquotes : Unquoted record) :
    readObject (object quote record) = some record := by
  obtain ⟨piece, tail, hpieces⟩ := List.exists_cons_of_ne_nil (pieces_ne_nil h)
  have hobject : object quote record = List.intercalate ['"'] (['{'] :: pieces record) := by
    rw [object, ← quote_members h, hpieces]
    simp [List.intercalate]
  have hsplit : (object quote record).splitOn '"' = ['{'] :: pieces record := by
    rw [hobject]
    refine List.splitOn_intercalate _ (List.forall_mem_cons.mpr ⟨by simp, ?_⟩) (by simp)
    exact notMem_pieces hquotes
  rw [readObject, hsplit]
  exact readMembers_pieces h

/-! ## Lines -/

/-- A list of lines as a text. -/
def unlines (lines : List (List Char)) : List Char := lines.flatMap (· ++ ['\n'])

/-- The lines of a text that ends with a line. -/
def lines (text : List Char) : List (List Char) := (text.splitOn '\n').dropLast

/-- **The lines are read back.** -/
theorem lines_unlines {ls : List (List Char)} (h : ∀ line ∈ ls, '\n' ∉ line) :
    lines (unlines ls) = ls := by
  have htext : unlines ls = List.intercalate ['\n'] (ls ++ [[]]) := by
    clear h
    induction ls with
    | nil => rfl
    | cons line ls ih =>
      obtain ⟨first, rest, hrest⟩ := List.exists_cons_of_ne_nil
        (List.append_ne_nil_of_right_ne_nil ls (List.cons_ne_nil ([] : List Char) []))
      rw [unlines, List.flatMap_cons, ← unlines, ih, List.cons_append, hrest]
      simp [List.intercalate]
  rw [lines, htext, List.splitOn_intercalate]
  · simp
  · intro line hline
    rcases List.mem_append.mp hline with hline | hline
    · exact h line hline
    · simp [List.mem_singleton.mp hline]
  · simp

end Records
