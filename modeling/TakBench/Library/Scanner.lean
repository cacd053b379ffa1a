import Mathlib.Data.List.Basic
import Mathlib.Tactic.Common

/-!
# Incremental scanners

A scanner consumes a list of symbols from the front: it either fails or returns the items it
found and the symbols it keeps for later. Run incrementally, it scans what it kept followed by
the next chunk. A scanner is *lawful* if scanning more input continues an earlier scan from what
that scan kept, and repeats an earlier failure. For a lawful scanner the cutting of the input
into chunks is invisible.

## Main definitions

* `Lawful scan`: scanning `xs ++ ys` continues the scan of `xs`
* `feed scan kept chunks`: the incremental run, stopping at the first failure

## Main results

* `Lawful.exists_take`: what a prefix of an input yields
* `Lawful.kept`: what a scan kept scans to nothing
* `Lawful.feed_eq`: the incremental run over any chunks is one scan of their concatenation
-/

namespace Scanner

variable {α β ε : Type*}

/-- Items found earlier precede the items of a later scan. -/
def prepend (out : List β) (r : Except ε (List β × List α)) : Except ε (List β × List α) :=
  r.map fun p => (out ++ p.1, p.2)

@[simp] theorem prepend_ok (out found : List β) (kept : List α) :
    prepend (ε := ε) out (.ok (found, kept)) = .ok (out ++ found, kept) := rfl

@[simp] theorem prepend_error (out : List β) (e : ε) :
    prepend (α := α) out (.error e) = .error e := rfl

@[simp] theorem prepend_nil (r : Except ε (List β × List α)) : prepend [] r = r := by
  cases r <;> simp [prepend, Except.map]

theorem prepend_prepend (out₁ out₂ : List β) (r : Except ε (List β × List α)) :
    prepend out₁ (prepend out₂ r) = prepend (out₁ ++ out₂) r := by
  cases r <;> simp [prepend, Except.map, List.append_assoc]

/-- Scanning more input continues an earlier scan, or repeats its failure. -/
structure Lawful (scan : List α → Except ε (List β × List α)) : Prop where
  ok_append : ∀ {xs found kept} (ys : List α), scan xs = .ok (found, kept) →
    scan (xs ++ ys) = prepend found (scan (kept ++ ys))
  error_append : ∀ {xs e} (ys : List α), scan xs = .error e → scan (xs ++ ys) = .error e

/-- What an input yields, its prefixes yield the first of. -/
theorem Lawful.exists_take {scan : List α → Except ε (List β × List α)} (h : Lawful scan)
    {xs ys kept : List α} {found : List β} (hs : scan (xs ++ ys) = .ok (found, kept)) :
    ∃ found' kept', scan xs = .ok (found', kept') ∧ found' <+: found := by
  cases hx : scan xs with
  | error e =>
    rw [h.error_append ys hx] at hs
    cases hs
  | ok p =>
    obtain ⟨found', kept'⟩ := p
    rw [h.ok_append ys hx] at hs
    cases hrest : scan (kept' ++ ys) with
    | error e => simp [hrest] at hs
    | ok q =>
      rw [hrest, prepend_ok, Except.ok.injEq, Prod.mk.injEq] at hs
      exact ⟨found', kept', rfl, q.1, hs.1⟩

/-- The incremental run: each chunk is scanned behind the symbols kept so far, and the first
failure ends the run. -/
def feed (scan : List α → Except ε (List β × List α)) :
    List α → List (List α) → Except ε (List β × List α)
  | kept, [] => .ok ([], kept)
  | kept, chunk :: chunks =>
    match scan (kept ++ chunk) with
    | .error e => .error e
    | .ok (found, kept') => prepend found (feed scan kept' chunks)

variable {scan : List α → Except ε (List β × List α)}

/-- What a scan kept scans to nothing. -/
theorem Lawful.kept (h : Lawful scan) {xs kept : List α} {found : List β}
    (hs : scan xs = .ok (found, kept)) : scan kept = .ok ([], kept) := by
  have hagain := h.ok_append [] hs
  rw [List.append_nil, List.append_nil, hs] at hagain
  cases hk : scan kept with
  | error e => simp [hk] at hagain
  | ok p =>
    obtain ⟨again, kept'⟩ := p
    rw [hk, prepend_ok, Except.ok.injEq, Prod.mk.injEq] at hagain
    obtain ⟨hfound, rfl⟩ := hagain
    rw [List.self_eq_append_right.mp hfound]

/-- **The cutting into chunks is invisible**: an incremental run of a lawful scanner is one scan
of the whole input. -/
theorem Lawful.feed_eq (h : Lawful scan) {kept : List α} (hkept : scan kept = .ok ([], kept))
    (chunks : List (List α)) : feed scan kept chunks = scan (kept ++ chunks.flatten) := by
  induction chunks generalizing kept with
  | nil => simp [feed, hkept]
  | cons chunk chunks ih =>
    rw [feed, List.flatten_cons, ← List.append_assoc]
    cases hs : scan (kept ++ chunk) with
    | error e => exact (h.error_append _ hs).symm
    | ok p =>
      obtain ⟨found, kept'⟩ := p
      rw [h.ok_append _ hs, ← ih (h.kept hs)]

end Scanner
