import Mathlib.Data.List.Basic
import Mathlib.Data.List.TakeDrop
import Mathlib.Data.List.TakeWhile
import Mathlib.Tactic.Common
import TakBench.Library.Search

/-!
# Markup documents: writing and reading tags

The part of XML that consists of tags with double-quoted attributes. A document is a balanced
list of start tags, empty tags and closing tags. `write` is its text: an attribute stands as
` key="value"` with the raw value between the quotes. `read` is a pull parser, without comments and
declarations, that gives back the tags of the text, the values raw. It looks into no name and no
attribute; a text is refused if a tag is not closed by `>`, a closing tag does not match the
innermost open one, or a reference has no semicolon. A tag may stay open at the end.

## Main definitions

* `Event`: a start tag, an empty tag, a closing tag, or other content
* `Document`: valid, balanced tags
* `write`, `read`: the text of a list of tags, and the tags of a text

## Main results

* `read_write`: reading the text of a document gives its tags
* `position_close`: in the text of valid tags a closing tag is found where it stands first
-/

namespace Markup

/-- An attribute, its value as it stands between the quotes. -/
structure Attribute where
  key : List UInt8
  value : List UInt8
  deriving DecidableEq

/-- What a reader reports. -/
inductive Event where
  | start (name : List UInt8) (attributes : List Attribute)
  | empty (name : List UInt8) (attributes : List Attribute)
  | close (name : List UInt8)
  | other (content : List UInt8)
  deriving DecidableEq

/-- A letter, a digit or an underscore. -/
def isNameByte (b : UInt8) : Bool :=
  (97 ≤ b && b ≤ 122) || (65 ≤ b && b ≤ 90) || (48 ≤ b && b ≤ 57) || b = 95

/-- Neither `<`, nor `>`, nor `"`. -/
def isValueByte (b : UInt8) : Bool := b ≠ 60 && b ≠ 62 && b ≠ 34

/-- A nonempty name. -/
def ValidName (name : List UInt8) : Prop := name ≠ [] ∧ ∀ b ∈ name, isNameByte b = true

instance (name : List UInt8) : Decidable (ValidName name) :=
  decidable_of_iff (name ≠ [] ∧ name.all isNameByte = true) (by simp [ValidName])

/-- A named attribute whose value contains no markup. -/
def Attribute.Valid (a : Attribute) : Prop :=
  ValidName a.key ∧ ∀ b ∈ a.value, isValueByte b = true

/-- Valid attributes under distinct keys. -/
def ValidAttributes (attributes : List Attribute) : Prop :=
  (∀ a ∈ attributes, a.Valid) ∧ (attributes.map Attribute.key).Nodup

/-- A tag with a valid name and valid attributes. -/
def Event.Valid : Event → Prop
  | .start name attributes | .empty name attributes => ValidName name ∧ ValidAttributes attributes
  | .close name => ValidName name
  | .other _ => False

/-- Every closing tag closes the innermost open one, and none stays open. -/
def Balanced : List (List UInt8) → List Event → Prop
  | stack, [] => stack = []
  | stack, .start name _ :: events => Balanced (name :: stack) events
  | stack, .empty _ _ :: events => Balanced stack events
  | name' :: stack, .close name :: events => name = name' ∧ Balanced stack events
  | [], .close _ :: _ => False
  | _, .other _ :: _ => False

/-- A balanced list of valid tags. -/
structure Document where
  events : List Event
  valid : ∀ e ∈ events, e.Valid
  balanced : Balanced [] events

/-! ## Writing -/

/-- ` key="value"` -/
def Attribute.write (a : Attribute) : List UInt8 := 32 :: (a.key ++ (61 :: 34 :: (a.value ++ [34])))

/-- The text of a tag. -/
def Event.write : Event → List UInt8
  | .start name attributes => 60 :: (name ++ (attributes.flatMap Attribute.write ++ [62]))
  | .empty name attributes => 60 :: (name ++ (attributes.flatMap Attribute.write ++ [47, 62]))
  | .close name => 60 :: 47 :: (name ++ [62])
  | .other content => content

/-- The text of a list of tags. -/
def write (events : List Event) : List UInt8 := events.flatMap Event.write

/-! ## Reading -/

/-- A blank between the parts of a tag. -/
def isSpaceByte (b : UInt8) : Bool := b = 32 || b = 9 || b = 10 || b = 13

/-- The content of a tag up to the `>` that closes it, and what follows. A `>` in quotes does not
close it. -/
def splitTag : Option UInt8 → List UInt8 → Option (List UInt8 × List UInt8)
  | _, [] => none
  | none, b :: bytes =>
    if b = 62 then some ([], bytes)
    else (splitTag (if b = 34 || b = 39 then some b else none) bytes).map fun p => (b :: p.1, p.2)
  | some quote, b :: bytes =>
    (splitTag (if b = quote then none else some quote) bytes).map fun p => (b :: p.1, p.2)

/-- The attributes in the content of a tag, up to one that is malformed. -/
def readAttributes : ℕ → List UInt8 → List Attribute
  | fuel + 1, 32 :: bytes =>
    match bytes.dropWhile isNameByte with
    | 61 :: 34 :: quoted =>
      match quoted.dropWhile (· ≠ 34) with
      | 34 :: rest =>
        ⟨bytes.takeWhile isNameByte, quoted.takeWhile (· ≠ 34)⟩ :: readAttributes fuel rest
      | _ => []
    | _ => []
  | _, _ => []

/-- The name and the attributes in the content of a tag. -/
def readContent (content : List UInt8) : List UInt8 × List Attribute :=
  (content.takeWhile fun b => !isSpaceByte b,
    readAttributes content.length (content.dropWhile fun b => !isSpaceByte b))

/-- The tag that opens with this content; a slash at the end makes it an empty one. -/
def openTag (content : List UInt8) : Event :=
  if content.getLast? = some 47 then
    .empty (readContent content.dropLast).1 (readContent content.dropLast).2
  else .start (readContent content).1 (readContent content).2

/-- The tag that closes with this content; blanks behind its name do not count. -/
def closeTag (content : List UInt8) : Event :=
  .close (content.reverse.dropWhile isSpaceByte).reverse

/-- Does every reference in a text end with a semicolon? -/
def closesReferences (inside : Bool) : List UInt8 → Bool
  | [] => !inside
  | b :: bytes =>
    if inside then if b = 59 then closesReferences false bytes
      else b ≠ 38 && closesReferences true bytes
    else closesReferences (b = 38) bytes

/-- The tag or the text at the front, and what follows. -/
def readTag : List UInt8 → Option (Event × List UInt8)
  | [] => none
  | 60 :: 33 :: _ => none
  | 60 :: 63 :: _ => none
  | 60 :: 47 :: bytes => (splitTag none bytes).map fun p => (closeTag p.1, p.2)
  | 60 :: bytes => (splitTag none bytes).map fun p => (openTag p.1, p.2)
  | b :: bytes =>
    if closesReferences false ((b :: bytes).takeWhile (· ≠ 60)) then
      some (.other ((b :: bytes).takeWhile (· ≠ 60)), (b :: bytes).dropWhile (· ≠ 60))
    else none

/-- The open tags after an event; a closing tag must match the innermost one. -/
def Event.advance (stack : List (List UInt8)) : Event → Option (List (List UInt8))
  | .start name _ => some (name :: stack)
  | .close name =>
    match stack with
    | [] => none
    | name' :: stack => if name = name' then some stack else none
  | .empty _ _ | .other _ => some stack

/-- The events of a text, `fuel` of them at most; `none` if it is refused. -/
def readTags : ℕ → List (List UInt8) → List UInt8 → Option (List Event)
  | _, _, [] => some []
  | 0, _, _ :: _ => none
  | fuel + 1, stack, b :: bytes =>
    match readTag (b :: bytes) with
    | none => none
    | some (event, rest) =>
      match event.advance stack with
      | none => none
      | some stack => (readTags fuel stack rest).map (event :: ·)

/-- The events of a text. -/
def read (bytes : List UInt8) : Option (List Event) := readTags bytes.length [] bytes

/-! ## Reading what was written -/

section TakeDropWhile

variable {α : Type*} {p : α → Bool} {xs ys : List α} {y : α}

theorem takeWhile_append_stop (hx : ∀ x ∈ xs, p x = true) (hy : p y = false) :
    (xs ++ y :: ys).takeWhile p = xs := by
  rw [List.takeWhile_append_of_pos hx, List.takeWhile_cons_of_neg (by simp [hy]),
    List.append_nil]

theorem dropWhile_append_stop (hx : ∀ x ∈ xs, p x = true) (hy : p y = false) :
    (xs ++ y :: ys).dropWhile p = y :: ys := by
  rw [List.dropWhile_append_of_pos hx, List.dropWhile_cons_of_neg (by simp [hy])]

end TakeDropWhile

theorem ne_of_isNameByte {b c : UInt8} (h : isNameByte b = true) (hc : isNameByte c = false) :
    b ≠ c := by
  rintro rfl
  exact Bool.false_ne_true (hc.symm.trans h)

theorem isSpaceByte_of_isNameByte {b : UInt8} (h : isNameByte b = true) :
    isSpaceByte b = false := by
  simp [isSpaceByte, ne_of_isNameByte h (c := 32) rfl, ne_of_isNameByte h (c := 9) rfl,
    ne_of_isNameByte h (c := 10) rfl, ne_of_isNameByte h (c := 13) rfl]

/-- The text of a part of a tag does not close it. -/
def Inner (bytes : List UInt8) : Prop :=
  ∀ rest, splitTag none (bytes ++ rest) = (splitTag none rest).map fun p => (bytes ++ p.1, p.2)

theorem Inner.nil : Inner [] := by
  intro rest
  cases h : splitTag none rest <;> simp [h]

theorem Inner.append {bytes bytes' : List UInt8} (h : Inner bytes) (h' : Inner bytes') :
    Inner (bytes ++ bytes') := by
  intro rest
  rw [List.append_assoc, h, h', Option.map_map]
  simp [Function.comp_def]

theorem Inner.cons {b : UInt8} {bytes : List UInt8} (hclose : b ≠ 62) (hdouble : b ≠ 34)
    (hsingle : b ≠ 39) (h : Inner bytes) : Inner (b :: bytes) := by
  intro rest
  rw [List.cons_append, splitTag, if_neg hclose, if_neg (by simp [hdouble, hsingle]), h,
    Option.map_map]
  simp [Function.comp_def]

theorem Inner.of_plain {bytes : List UInt8} (h : ∀ b ∈ bytes, b ≠ 62 ∧ b ≠ 34 ∧ b ≠ 39) :
    Inner bytes := by
  induction bytes with
  | nil => exact Inner.nil
  | cons b bytes ih =>
    obtain ⟨hclose, hdouble, hsingle⟩ := h b List.mem_cons_self
    exact .cons hclose hdouble hsingle (ih fun b hb => h b (List.mem_cons_of_mem _ hb))

/-- Between quotes, only the quote matters. -/
theorem splitTag_quoted {value : List UInt8} (h : ∀ b ∈ value, b ≠ 34) (rest : List UInt8) :
    splitTag (some 34) (value ++ 34 :: rest) =
      (splitTag none rest).map fun p => (value ++ 34 :: p.1, p.2) := by
  induction value with
  | nil => rfl
  | cons b value ih =>
    rw [List.cons_append, splitTag, if_neg (h b List.mem_cons_self),
      ih fun b hb => h b (List.mem_cons_of_mem _ hb), Option.map_map]
    simp [Function.comp_def]

theorem Inner.quoted {value : List UInt8} (h : ∀ b ∈ value, b ≠ 34) :
    Inner (34 :: (value ++ [34])) := by
  intro rest
  have hsplit : splitTag none (34 :: (value ++ [34]) ++ rest) =
      (splitTag (some 34) (value ++ 34 :: rest)).map fun p => (34 :: p.1, p.2) := by
    rw [List.cons_append, List.append_assoc]
    rfl
  rw [hsplit, splitTag_quoted h, Option.map_map]
  simp [Function.comp_def]

theorem Inner.name {name : List UInt8} (h : ∀ b ∈ name, isNameByte b = true) : Inner name := by
  refine .of_plain fun b hb => ?_
  have hname := h b hb
  exact ⟨ne_of_isNameByte hname rfl, ne_of_isNameByte hname rfl, ne_of_isNameByte hname rfl⟩

theorem ne_quote_of_isValueByte {b : UInt8} (h : isValueByte b = true) : b ≠ 34 := by
  rintro rfl
  exact absurd h (by decide)

theorem Inner.attribute {a : Attribute} (ha : a.Valid) : Inner a.write := by
  have hquoted := Inner.quoted fun b hb => ne_quote_of_isValueByte (ha.2 b hb)
  have hvalue : Inner (61 :: 34 :: (a.value ++ [34])) :=
    .cons (by decide) (by decide) (by decide) hquoted
  exact .cons (by decide) (by decide) (by decide) ((Inner.name ha.1.2).append hvalue)

theorem Inner.attributes {attributes : List Attribute} (h : ∀ a ∈ attributes, a.Valid) :
    Inner (attributes.flatMap Attribute.write) := by
  induction attributes with
  | nil => exact Inner.nil
  | cons a attributes ih =>
    rw [List.flatMap_cons]
    exact (Inner.attribute (h a List.mem_cons_self)).append
      (ih fun a ha => h a (List.mem_cons_of_mem _ ha))

/-- The content of a tag is what stands before its `>`. -/
theorem splitTag_inner {bytes : List UInt8} (h : Inner bytes) (rest : List UInt8) :
    splitTag none (bytes ++ 62 :: rest) = some (bytes, rest) := by
  have hclose : splitTag none (62 :: rest) = some ([], rest) := rfl
  rw [h, hclose, Option.map_some, List.append_nil]

theorem readAttributes_attribute {a : Attribute} (ha : a.Valid) (fuel : ℕ) (rest : List UInt8) :
    readAttributes (fuel + 1) (a.write ++ rest) = a :: readAttributes fuel rest := by
  have hwrite : a.write ++ rest = 32 :: (a.key ++ 61 :: (34 :: (a.value ++ 34 :: rest))) := by
    simp [Attribute.write]
  have hstop : isNameByte 61 = false := by decide
  have hvalue : ∀ b ∈ a.value, decide (b ≠ 34) = true :=
    fun b hb => decide_eq_true (ne_quote_of_isValueByte (ha.2 b hb))
  have hquote : decide ((34 : UInt8) ≠ 34) = false := by decide
  rw [hwrite, readAttributes, dropWhile_append_stop ha.1.2 hstop]
  simp only
  rw [dropWhile_append_stop hvalue hquote, takeWhile_append_stop ha.1.2 hstop,
    takeWhile_append_stop hvalue hquote]
  rfl

/-- The attributes of a tag are read back. -/
theorem readAttributes_write {attributes : List Attribute} (h : ∀ a ∈ attributes, a.Valid)
    {fuel : ℕ} (hfuel : attributes.length ≤ fuel) :
    readAttributes fuel (attributes.flatMap Attribute.write) = attributes := by
  induction attributes generalizing fuel with
  | nil => cases fuel <;> rfl
  | cons a attributes ih =>
    obtain ⟨fuel, rfl⟩ := Nat.exists_eq_add_one_of_ne_zero (Nat.ne_of_gt (Nat.zero_lt_of_lt hfuel))
    rw [List.flatMap_cons, readAttributes_attribute (h a List.mem_cons_self),
      ih (fun b hb => h b (List.mem_cons_of_mem _ hb)) (Nat.le_of_succ_le_succ hfuel)]

theorem length_le_flatMap_write (attributes : List Attribute) :
    attributes.length ≤ (attributes.flatMap Attribute.write).length := by
  induction attributes with
  | nil => simp
  | cons a attributes ih =>
    simp only [List.flatMap_cons, List.length_append, List.length_cons, Attribute.write]
    omega

/-- The name and the attributes of a tag are read back from its content. -/
theorem readContent_write {name : List UInt8} {attributes : List Attribute}
    (hname : ValidName name) (hattributes : ValidAttributes attributes) :
    readContent (name ++ attributes.flatMap Attribute.write) = (name, attributes) := by
  have hplain : ∀ b ∈ name, (!isSpaceByte b) = true := by
    intro b hb
    simp [isSpaceByte_of_isNameByte (hname.2 b hb)]
  have hfuel : attributes.length ≤ (name ++ attributes.flatMap Attribute.write).length := by
    rw [List.length_append]
    exact (length_le_flatMap_write attributes).trans (Nat.le_add_left _ _)
  -- the name ends at the blank of the first attribute, or there is none
  have hsplit : (name ++ attributes.flatMap Attribute.write).takeWhile (fun b => !isSpaceByte b) =
        name ∧
      (name ++ attributes.flatMap Attribute.write).dropWhile (fun b => !isSpaceByte b) =
        attributes.flatMap Attribute.write := by
    cases attributes with
    | nil =>
      rw [List.flatMap_nil, List.append_nil]
      exact ⟨List.takeWhile_eq_self_iff.mpr hplain, List.dropWhile_eq_nil_iff.mpr hplain⟩
    | cons a attributes =>
      exact ⟨takeWhile_append_stop hplain rfl, dropWhile_append_stop hplain rfl⟩
  rw [readContent, hsplit.1, hsplit.2, readAttributes_write hattributes.1 hfuel]

/-- The content of a valid tag does not end with a slash. -/
theorem getLast?_content_ne {name : List UInt8} {attributes : List Attribute}
    (hname : ValidName name) :
    (name ++ attributes.flatMap Attribute.write).getLast? ≠ some 47 := by
  rcases List.eq_nil_or_concat attributes with rfl | ⟨attributes, a, rfl⟩
  · rw [List.flatMap_nil, List.append_nil]
    intro hlast
    exact ne_of_isNameByte (hname.2 47 (List.mem_of_getLast? hlast)) rfl rfl
  · have hquote : (name ++ (attributes.concat a).flatMap Attribute.write).getLast? = some 34 := by
      simp [Attribute.write, List.getLast?_append, List.getLast?_cons]
    rw [hquote]
    decide

theorem openTag_start {name : List UInt8} {attributes : List Attribute} (hname : ValidName name)
    (hattributes : ValidAttributes attributes) :
    openTag (name ++ attributes.flatMap Attribute.write) = .start name attributes := by
  rw [openTag, if_neg (getLast?_content_ne hname), readContent_write hname hattributes]

theorem openTag_empty {name : List UInt8} {attributes : List Attribute} (hname : ValidName name)
    (hattributes : ValidAttributes attributes) :
    openTag (name ++ attributes.flatMap Attribute.write ++ [47]) = .empty name attributes := by
  rw [openTag, if_pos (by simp), List.dropLast_concat, readContent_write hname hattributes]

theorem closeTag_name {name : List UInt8} (hname : ValidName name) :
    closeTag name = .close name := by
  have hlast : name.reverse.dropWhile isSpaceByte = name.reverse := by
    obtain ⟨b, bytes, hb⟩ := List.exists_cons_of_ne_nil (List.reverse_ne_nil_iff.mpr hname.1)
    have hmem : b ∈ name := List.mem_reverse.mp (hb ▸ List.mem_cons_self)
    rw [hb, List.dropWhile_cons_of_neg (by simp [isSpaceByte_of_isNameByte (hname.2 b hmem)])]
  rw [closeTag, hlast, List.reverse_reverse]

/-- A tag that opens with a name is read from its content. -/
theorem readTag_open {name bytes : List UInt8} (hname : ValidName name)
    (hinner : Inner (name ++ bytes)) (rest : List UInt8) :
    readTag (60 :: (name ++ bytes ++ 62 :: rest)) = some (openTag (name ++ bytes), rest) := by
  have hsplit := splitTag_inner hinner rest
  obtain ⟨b, name', rfl⟩ := List.exists_cons_of_ne_nil hname.1
  have hbyte : isNameByte b = true := hname.2 b List.mem_cons_self
  simp only [List.cons_append] at hsplit ⊢
  rw [readTag, hsplit]
  · rfl
  · simpa using ne_of_isNameByte hbyte rfl
  · simpa using ne_of_isNameByte hbyte rfl
  · simpa using ne_of_isNameByte hbyte rfl

/-- A tag is read back. -/
theorem readTag_write {e : Event} (he : e.Valid) (rest : List UInt8) :
    readTag (e.write ++ rest) = some (e, rest) := by
  cases e with
  | start name attributes =>
    obtain ⟨hname, hattributes⟩ := he
    have hinner := (Inner.name hname.2).append (Inner.attributes hattributes.1)
    have hread := readTag_open hname hinner rest
    rw [openTag_start hname hattributes] at hread
    simpa [Event.write] using hread
  | empty name attributes =>
    obtain ⟨hname, hattributes⟩ := he
    have hslash : Inner [47] := .cons (by decide) (by decide) (by decide) Inner.nil
    have hinner := (Inner.name hname.2).append ((Inner.attributes hattributes.1).append hslash)
    have hread := readTag_open hname hinner rest
    rw [← List.append_assoc name, openTag_empty hname hattributes] at hread
    simpa [Event.write] using hread
  | close name =>
    have hname : ValidName name := he
    have hwrite : (Event.close name).write ++ rest = 60 :: 47 :: (name ++ 62 :: rest) := by
      simp [Event.write]
    rw [hwrite, readTag, splitTag_inner (Inner.name hname.2), Option.map_some, closeTag_name hname]
  | other content => exact he.elim

theorem Event.write_ne_nil {e : Event} (he : e.Valid) : e.write ≠ [] := by
  cases e with
  | other content => exact he.elim
  | _ => simp [Event.write]

/-- In a balanced list every tag is in its place. -/
theorem Balanced.advance {stack : List (List UInt8)} {e : Event} {events : List Event}
    (h : Balanced stack (e :: events)) :
    ∃ stack', e.advance stack = some stack' ∧ Balanced stack' events := by
  cases e with
  | start name attributes => exact ⟨_, rfl, h⟩
  | empty name attributes => exact ⟨_, rfl, h⟩
  | close name =>
    cases stack with
    | nil => exact h.elim
    | cons name' stack => exact ⟨stack, if_pos h.1, h.2⟩
  | other content => cases stack <;> exact h.elim

theorem readTags_write {events : List Event} (h : ∀ e ∈ events, e.Valid)
    {stack : List (List UInt8)} (hbalanced : Balanced stack events) {fuel : ℕ}
    (hfuel : (write events).length ≤ fuel) : readTags fuel stack (write events) = some events := by
  induction events generalizing fuel stack with
  | nil => cases fuel <;> rfl
  | cons e events ih =>
    have he := h e List.mem_cons_self
    obtain ⟨stack', hadvance, hrest⟩ := hbalanced.advance
    obtain ⟨b, bytes, hb⟩ := List.exists_cons_of_ne_nil (Event.write_ne_nil he)
    have hcons : write (e :: events) = b :: (bytes ++ write events) := by
      simp [write, hb]
    rw [hcons] at hfuel ⊢
    obtain ⟨fuel, rfl⟩ := Nat.exists_eq_add_one_of_ne_zero
      (Nat.ne_of_gt (Nat.lt_of_lt_of_le (Nat.succ_pos _) hfuel))
    have htag : readTag (b :: (bytes ++ write events)) = some (e, write events) := by
      rw [← List.cons_append, ← hb]
      exact readTag_write he _
    have hshort : (write events).length ≤ fuel := by
      simp only [List.length_cons, List.length_append] at hfuel
      omega
    rw [readTags, htag]
    simp only [hadvance]
    rw [ih (fun e' he' => h e' (List.mem_cons_of_mem _ he')) hrest hshort]
    rfl

/-- **Reading the text of a document gives its tags.** -/
theorem read_write (d : Document) : read (write d.events) = some d.events :=
  readTags_write d.valid d.balanced (Nat.le_refl _)

/-! ## Finding a closing tag -/

@[simp] theorem write_append (events events' : List Event) :
    write (events ++ events') = write events ++ write events' := List.flatMap_append

theorem ne_of_isValueByte {b : UInt8} (h : isValueByte b = true) : b ≠ 60 := by
  rintro rfl
  exact absurd h (by decide)

theorem Attribute.notMem_write {a : Attribute} (ha : a.Valid) : (60 : UInt8) ∉ a.write := by
  simp only [Attribute.write, List.mem_cons, List.mem_append, List.not_mem_nil, or_false]
  rintro (h | h | h | h | h | h)
  · exact absurd h (by decide)
  · exact ne_of_isNameByte (ha.1.2 60 h) rfl rfl
  · exact absurd h (by decide)
  · exact absurd h (by decide)
  · exact ne_of_isValueByte (ha.2 60 h) rfl
  · exact absurd h (by decide)

/-- A tag is one `<` and a body without another. -/
theorem Event.exists_body {e : Event} (he : e.Valid) :
    ∃ body, e.write = 60 :: body ∧ (60 : UInt8) ∉ body := by
  have hname : ∀ {name : List UInt8}, ValidName name → (60 : UInt8) ∉ name :=
    fun hn h => ne_of_isNameByte (hn.2 60 h) rfl rfl
  have hattributes : ∀ {attributes : List Attribute}, ValidAttributes attributes →
      (60 : UInt8) ∉ attributes.flatMap Attribute.write := by
    intro attributes ha h
    obtain ⟨a, hmem, h⟩ := List.mem_flatMap.mp h
    exact Attribute.notMem_write (ha.1 a hmem) h
  cases e with
  | start name attributes =>
    refine ⟨_, rfl, ?_⟩
    simp [hname he.1, hattributes he.2]
  | empty name attributes =>
    refine ⟨_, rfl, ?_⟩
    simp [hname he.1, hattributes he.2]
  | close name =>
    refine ⟨_, rfl, ?_⟩
    simp [hname he]
  | other content => exact he.elim

/-- A text starts with one tag only. -/
theorem Event.eq_of_write_prefix {e e' : Event} (he : e.Valid) (he' : e'.Valid)
    {rest : List UInt8} (h : e'.write <+: e.write ++ rest) : e' = e := by
  obtain ⟨rest', hrest⟩ := h
  have hread := readTag_write he' rest'
  rw [hrest, readTag_write he rest, Option.some.injEq, Prod.mk.injEq] at hread
  exact hread.1.symm

/-- A tag not in a list of valid tags is not in its text. The induction is on the list: a tag
starts with the only `<` it contains, so no other tag starts inside one. -/
theorem position_write_eq_none {events : List Event} {e' : Event} (h : ∀ e ∈ events, e.Valid)
    (he' : e'.Valid) (hmem : e' ∉ events) : Search.position e'.write (write events) = none := by
  obtain ⟨body', hbody', -⟩ := Event.exists_body he'
  induction events with
  | nil => simp [write, Search.position, hbody']
  | cons e events ih =>
    have he := h e (by simp)
    obtain ⟨body, hbody, hfree⟩ := Event.exists_body he
    have hnone := ih (fun x hx => h x (by simp [hx])) fun hx => hmem (by simp [hx])
    have hwrite : write (e :: events) = e.write ++ write events := rfl
    -- the tag does not start at this one, nor inside it
    have hinside : ∀ j < e.write.length, ¬ e'.write <+: (e.write ++ write events).drop j := by
      intro j hj hpre
      cases j with
      | zero => exact hmem (by simp [Event.eq_of_write_prefix he he' hpre])
      | succ j =>
        rw [hbody, List.cons_append, List.drop_succ_cons] at hpre
        rw [hbody, List.length_cons, Nat.add_lt_add_iff_right] at hj
        rw [List.drop_append_of_le_length (Nat.le_of_lt hj), hbody',
          List.drop_eq_getElem_cons hj, List.cons_append, List.cons_prefix_cons] at hpre
        exact hfree (hpre.1 ▸ List.getElem_mem hj)
    rw [hwrite, Search.position_drop hinside, List.drop_left, hnone]
    rfl

/-- **A closing tag is found where it stands first.** -/
theorem position_close {events : List Event} {name : List UInt8} (h : ∀ e ∈ events, e.Valid)
    (hname : ValidName name) (hmem : .close name ∉ events) (rest : List UInt8) :
    Search.position (Event.close name).write
        (write events ++ ((Event.close name).write ++ rest)) = some (write events).length := by
  have hnone : Search.position (Event.close name).write (write events) = none :=
    position_write_eq_none h hname hmem
  obtain ⟨body, hbody, hfree⟩ := Event.exists_body (e := .close name) hname
  rw [hbody] at hnone ⊢
  exact Search.position_glue hfree hnone (List.prefix_append _ _)

end Markup
