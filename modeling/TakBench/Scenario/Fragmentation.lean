import Mathlib.Data.List.Basic
import Mathlib.Tactic.Common
import TakBench.Library.Loop

/-!
# Fragmented writes

`write_fragmented` cuts the bytes of a batch into the slices it writes one after the other. Its loop
runs over an iterator that never ends, and is over when all bytes are written or a write fails. Each
pass writes a byte at least, also for a chunk size of zero, and the sum of the offset and a chunk
size saturates.

## Main definitions

* `fragments chunks bytes`: the slices, in the order they are written
* `fragmentPass`: one pass of the loop
* `WriteFragmented`: what `write_fragmented` writes, and its result
* `writeEach`: writing one slice after the other, up to the first failure

## Main results

* `fragments_flatten`: the slices are the bytes, cut up
* `ne_nil_of_mem_fragments`: no slice of a nonempty batch is empty
* `writeFragmented_iff`: the loop ends, and writes the slices
* `writeFragmented_exact`: the slices of a list of chunk sizes
-/

namespace TakBench

/-- The slices from `offset` on; `index` counts the chunk sizes used so far. -/
def fragmentLoop (chunks : List ℕ) (bytes : List UInt8) (index offset : ℕ) : List (List UInt8) :=
  if bytes.length ≤ offset then []
  else
    -- `saturating_add` cannot be seen, since a length is at most `usize::MAX`
    let stop := min (offset + max (chunks.getD (index % chunks.length) 0) 1) bytes.length
    (bytes.drop offset).take (stop - offset) :: fragmentLoop chunks bytes (index + 1) stop
termination_by bytes.length - offset

/-- The writes of `write_fragmented`. -/
def fragments (chunks : List ℕ) (bytes : List UInt8) : List (List UInt8) :=
  if chunks.isEmpty then [bytes] else fragmentLoop chunks bytes 0 0

theorem fragmentLoop_flatten (chunks : List ℕ) (bytes : List UInt8) (index offset : ℕ) :
    (fragmentLoop chunks bytes index offset).flatten = bytes.drop offset := by
  fun_induction fragmentLoop chunks bytes index offset with
  | case1 index offset h => rw [List.flatten_nil, List.drop_eq_nil_of_le h]
  | case2 index offset h stop ih =>
    have hstop : bytes.drop stop = (bytes.drop offset).drop (stop - offset) := by
      rw [List.drop_drop]
      congr 1
      omega
    rw [List.flatten_cons, ih, hstop, List.take_append_drop]

/-- **The slices are the bytes, cut up.** -/
@[simp] theorem fragments_flatten (chunks : List ℕ) (bytes : List UInt8) :
    (fragments chunks bytes).flatten = bytes := by
  rw [fragments]
  split
  · simp
  · rw [fragmentLoop_flatten, List.drop_zero]

theorem ne_nil_of_mem_fragmentLoop {chunks : List ℕ} {bytes fragment : List UInt8}
    {index offset : ℕ} (h : fragment ∈ fragmentLoop chunks bytes index offset) :
    fragment ≠ [] := by
  fun_induction fragmentLoop chunks bytes index offset with
  | case1 => simp at h
  | case2 index offset hlt stop ih =>
    rcases List.mem_cons.mp h with rfl | h
    · refine List.ne_nil_of_length_pos ?_
      rw [List.length_take, List.length_drop]
      omega
    · exact ih h

/-- Every write makes progress, also for a chunk size of zero. -/
theorem ne_nil_of_mem_fragments {chunks : List ℕ} {bytes fragment : List UInt8}
    (hbytes : bytes ≠ []) (h : fragment ∈ fragments chunks bytes) : fragment ≠ [] := by
  rw [fragments] at h
  split at h
  · rwa [List.mem_singleton.mp h]
  · exact ne_nil_of_mem_fragmentLoop h

/-! ## The loop -/

/-- The iterator of `cycle` over the chunk sizes: the rest of the round, and the whole list. -/
structure ChunkCycle where
  rest : List ℕ
  orig : List ℕ

/-- The next chunk size: at the end of a round the list is taken again. -/
def ChunkCycle.next : ChunkCycle → Option (ℕ × ChunkCycle)
  | ⟨chunk :: rest, orig⟩ => some (chunk, ⟨rest, orig⟩)
  | ⟨[], chunk :: rest⟩ => some (chunk, ⟨rest, chunk :: rest⟩)
  | ⟨[], []⟩ => none

/-- The iterator, the offset and the slices written. -/
structure Fragmenting where
  chunks : ChunkCycle
  offset : ℕ
  written : List (List UInt8)

/-- The loop starts in front of the chunk sizes and the bytes. -/
def Fragmenting.start (chunks : List ℕ) : Fragmenting := ⟨⟨chunks, chunks⟩, 0, []⟩

variable {ε : Type} (usizeMax : ℕ) (bytes : List UInt8) (write : ℕ → Except ε Unit)

/-- One pass of the loop; the sum saturates at `usizeMax`. The result of the `k`-th `write_all` is
`write k`. The loop ends with the slices written and a result, or with `none` for a panic. -/
def fragmentPass (s : Fragmenting) :
    Fragmenting ⊕ (List (List UInt8) × Option (Except ε Unit)) :=
  match s.chunks.next with
  | none => .inr (s.written, some (.ok ()))
  | some (chunk, chunks) =>
    if s.offset = bytes.length then .inr (s.written, some (.ok ()))
    else
      let stop := min (min (s.offset + max chunk 1) usizeMax) bytes.length
      -- a slice that ends before it starts is a panic
      if stop < s.offset then .inr (s.written, none)
      else
        match write s.written.length with
        | .error e => .inr (s.written, some (.error e))
        | .ok () =>
          .inl ⟨chunks, stop, s.written ++ [(bytes.drop s.offset).take (stop - s.offset)]⟩

/-- `write_fragmented`: the slices written and the result. -/
inductive WriteFragmented (chunks : List ℕ) :
    List (List UInt8) × Option (Except ε Unit) → Prop
  | whole (hchunks : chunks = []) (hwrite : write 0 = .ok ()) :
      WriteFragmented chunks ([bytes], some (.ok ()))
  | wholeFails (hchunks : chunks = []) {e : ε} (hwrite : write 0 = .error e) :
      WriteFragmented chunks ([], some (.error e))
  | fragmented (hchunks : chunks ≠ []) {n : ℕ} {out : List (List UInt8) × Option (Except ε Unit)}
      (hloop : Loop (fragmentPass usizeMax bytes write) n (.start chunks) out) :
      WriteFragmented chunks out

/-- The slices are written one after the other, from the `k`-th write on, up to the first write that
fails. -/
def writeEach (k : ℕ) : List (List UInt8) → List (List UInt8) × Except ε Unit
  | [] => ([], .ok ())
  | fragment :: later =>
    match write k with
    | .error e => ([], .error e)
    | .ok () => (fragment :: (writeEach (k + 1) later).1, (writeEach (k + 1) later).2)

variable {usizeMax bytes write} {chunks : List ℕ} {slices : List (List UInt8)} {k index : ℕ}

/-! ## Writing the slices -/

theorem writeEach_ok (h : ∀ j < slices.length, write (k + j) = .ok ()) :
    writeEach write k slices = (slices, .ok ()) := by
  induction slices generalizing k with
  | nil => rfl
  | cons fragment slices ih =>
    have hfirst : write k = .ok () := h 0 (Nat.succ_pos _)
    have hlater : ∀ j < slices.length, write (k + 1 + j) = .ok () := by
      intro j hj
      rw [Nat.add_right_comm, Nat.add_assoc]
      exact h (j + 1) (Nat.succ_lt_succ hj)
    rw [writeEach, hfirst, ih hlater]

/-- The first write that fails is the last one. -/
theorem writeEach_error {j : ℕ} {e : ε} (hj : j < slices.length)
    (hbefore : ∀ i < j, write (k + i) = .ok ()) (hfails : write (k + j) = .error e) :
    writeEach write k slices = (slices.take j, .error e) := by
  induction slices generalizing k j with
  | nil => cases hj
  | cons fragment slices ih =>
    cases j with
    | zero =>
      rw [Nat.add_zero] at hfails
      rw [writeEach, hfails, List.take_zero]
    | succ j =>
      have hfirst : write k = .ok () := hbefore 0 (Nat.succ_pos _)
      have hlater : ∀ i < j, write (k + 1 + i) = .ok () := by
        intro i hi
        rw [Nat.add_right_comm, Nat.add_assoc]
        exact hbefore (i + 1) (Nat.succ_lt_succ hi)
      have hrest : write (k + 1 + j) = .error e := by
        rw [Nat.add_right_comm, Nat.add_assoc]
        exact hfails
      rw [writeEach, hfirst, ih (Nat.lt_of_succ_lt_succ hj) hlater hrest, List.take_succ_cons]

/-! ## The chunk sizes -/

/-- The iterator after `index` chunk sizes: the round is over, or goes on with the next one. -/
def ChunkCycle.IsAt (c : ChunkCycle) (chunks : List ℕ) (index : ℕ) : Prop :=
  ∃ taken ≤ chunks.length, c = ⟨chunks.drop taken, chunks⟩ ∧
    index % chunks.length = taken % chunks.length

/-- **The chunk sizes come round.** -/
theorem ChunkCycle.next_of_isAt {c : ChunkCycle} (hchunks : chunks ≠ [])
    (h : c.IsAt chunks index) :
    ∃ c', c.next = some (chunks.getD (index % chunks.length) 0, c') ∧
      c'.IsAt chunks (index + 1) := by
  have hpos : 0 < chunks.length := List.length_pos_iff.mpr hchunks
  obtain ⟨taken, htaken, rfl, hindex⟩ := h
  rcases Nat.lt_or_eq_of_le htaken with hlt | rfl
  · refine ⟨⟨chunks.drop (taken + 1), chunks⟩, ?_, taken + 1, hlt, rfl, ?_⟩
    · rw [List.drop_eq_getElem_cons hlt, next, hindex, Nat.mod_eq_of_lt hlt,
        List.getD_eq_getElem?_getD, List.getElem?_eq_getElem hlt, Option.getD_some]
    · rw [Nat.add_mod, hindex, ← Nat.add_mod]
  -- the round is over
  · refine ⟨⟨chunks.drop 1, chunks⟩, ?_, 1, hpos, rfl, ?_⟩
    · rw [List.drop_length, hindex, Nat.mod_self]
      cases chunks with
      | nil => exact absurd rfl hchunks
      | cons chunk later => rfl
    · rw [Nat.add_mod, hindex, ← Nat.add_mod, Nat.add_mod_left]

/-! ## The loop ends -/

/-- A pass in front of the end writes a slice of the loop. -/
theorem fragmentPass_of_lt (write : ℕ → Except ε Unit) (written : List (List UInt8))
    {c c' : ChunkCycle} {chunk offset : ℕ}
    (hbytes : bytes.length ≤ usizeMax) (hnext : c.next = some (chunk, c'))
    (hoffset : offset < bytes.length) :
    fragmentPass usizeMax bytes write ⟨c, offset, written⟩ =
      match write written.length with
      | .error e => .inr (written, some (.error e))
      | .ok () =>
        .inl ⟨c', min (offset + max chunk 1) bytes.length,
          written ++ [(bytes.drop offset).take (min (offset + max chunk 1) bytes.length - offset)]⟩
      := by
  -- a sum that saturates is past the end
  have hstop : min (min (offset + max chunk 1) usizeMax) bytes.length =
      min (offset + max chunk 1) bytes.length := by
    omega
  have hforward : ¬ min (offset + max chunk 1) bytes.length < offset := by
    omega
  simp only [fragmentPass, hnext, if_neg (Nat.ne_of_lt hoffset), hstop, if_neg hforward]

/-- **The loop ends, and writes the slices** from the offset on. -/
theorem loop_fragmentPass (write : ℕ → Except ε Unit) (hchunks : chunks ≠ [])
    (hbytes : bytes.length ≤ usizeMax) (c : ChunkCycle) {offset : ℕ}
    (hoffset : offset ≤ bytes.length) (written : List (List UInt8)) (hc : c.IsAt chunks index) :
    ∃ n, Loop (fragmentPass usizeMax bytes write) n ⟨c, offset, written⟩
      (written ++ (writeEach write written.length (fragmentLoop chunks bytes index offset)).1,
        some (writeEach write written.length (fragmentLoop chunks bytes index offset)).2) := by
  fun_induction fragmentLoop chunks bytes index offset generalizing c written with
  -- all bytes are written
  | case1 index offset hend =>
    obtain ⟨c', hnext, -⟩ := ChunkCycle.next_of_isAt hchunks hc
    obtain rfl : offset = bytes.length := Nat.le_antisymm hoffset hend
    refine ⟨1, .done ?_⟩
    simp only [fragmentPass, hnext, if_true, writeEach, List.append_nil]
  | case2 index offset hlt stop ih =>
    obtain ⟨c', hnext, hc'⟩ := ChunkCycle.next_of_isAt hchunks hc
    have hpass := fragmentPass_of_lt write written hbytes hnext (Nat.lt_of_not_le hlt)
    cases hwrite : write written.length with
    | error e =>
      rw [hwrite] at hpass
      refine ⟨1, .done ?_⟩
      rw [hpass, writeEach, hwrite, List.append_nil]
    | ok _ =>
      -- the rest of the loop is that of the slices behind this one
      rw [hwrite] at hpass
      obtain ⟨n, hloop⟩ := ih c' (Nat.min_le_right _ _)
        (written ++ [(bytes.drop offset).take (stop - offset)]) hc'
      rw [List.length_append, List.length_singleton, List.append_assoc,
        List.singleton_append] at hloop
      refine ⟨n + 1, .more hpass ?_⟩
      rw [writeEach, hwrite]
      exact hloop

/-- **What `write_fragmented` does**: it writes the slices one after the other, up to the first one
that cannot be written, and ends. -/
theorem writeFragmented_iff (hbytes : bytes.length ≤ usizeMax)
    {out : List (List UInt8) × Option (Except ε Unit)} :
    WriteFragmented usizeMax bytes write chunks out ↔
      out = ((writeEach write 0 (fragments chunks bytes)).1,
        some (writeEach write 0 (fragments chunks bytes)).2) := by
  by_cases hchunks : chunks = []
  · subst hchunks
    have hwhole : fragments [] bytes = [bytes] := rfl
    rw [hwhole]
    constructor
    · rintro (⟨-, hwrite⟩ | ⟨-, hwrite⟩ | ⟨hne, -⟩)
      · simp only [writeEach, hwrite]
      · simp only [writeEach, hwrite]
      · exact absurd rfl hne
    · rintro rfl
      cases hwrite : write 0 with
      | error e =>
        simp only [writeEach, hwrite]
        exact .wholeFails rfl hwrite
      | ok _ =>
        simp only [writeEach, hwrite]
        exact .whole rfl hwrite
  · have hslices : fragments chunks bytes = fragmentLoop chunks bytes 0 0 :=
      if_neg (by simpa using hchunks)
    obtain ⟨n, hloop⟩ := loop_fragmentPass write hchunks hbytes ⟨chunks, chunks⟩
      (Nat.zero_le _) [] ⟨0, Nat.zero_le _, rfl, rfl⟩
    rw [hslices]
    constructor
    · rintro (⟨hnil, -⟩ | ⟨hnil, -⟩ | ⟨-, hloop'⟩)
      · exact absurd hnil hchunks
      · exact absurd hnil hchunks
      · exact (hloop'.unique hloop).2
    · rintro rfl
      exact .fragmented hchunks hloop

/-! ## The slices -/

/-- Each slice is as long as its chunk size says, as far as there are bytes. -/
theorem length_getElem_fragmentLoop (chunks : List ℕ) (bytes : List UInt8) (index offset : ℕ) :
    ∀ i slice, (fragmentLoop chunks bytes index offset)[i]? = some slice →
      slice.length = min (max (chunks.getD ((index + i) % chunks.length) 0) 1) (bytes.length -
        (offset + ((fragmentLoop chunks bytes index offset).take i).flatten.length)) := by
  fun_induction fragmentLoop chunks bytes index offset with
  | case1 => exact fun i slice h => by cases h
  | case2 index offset hlt stop ih =>
    rintro (_ | i) slice h
    · obtain rfl := Option.some.inj h
      rw [List.take_zero, List.flatten_nil, List.length_nil, List.length_take, List.length_drop,
        Nat.add_zero, Nat.add_zero]
      omega
    · have hfirst : offset + ((bytes.drop offset).take (stop - offset)).length = stop := by
        rw [List.length_take, List.length_drop]
        omega
      rw [ih i slice h, List.take_succ_cons, List.flatten_cons, List.length_append,
        ← Nat.add_assoc offset, hfirst, Nat.add_assoc index, Nat.add_comm 1]

/-- **The loop of `write_fragmented` is exact**: it ends, and cuts the bytes into slices that are
not empty, each as long as the next chunk size says, or the rest of the bytes; a write that fails
is the last one. -/
theorem writeFragmented_exact (hchunks : chunks ≠ []) (hbytes : bytes.length ≤ usizeMax) :
    ∃ slices : List (List UInt8),
      (∀ slice ∈ slices, slice ≠ []) ∧ slices.flatten = bytes ∧
      (∀ i slice, slices[i]? = some slice → slice.length =
        min (max (chunks.getD (i % chunks.length) 0) 1)
          (bytes.length - (slices.take i).flatten.length)) ∧
      (∀ write : ℕ → Except ε Unit, (∀ j < slices.length, write j = .ok ()) → ∀ out,
        WriteFragmented usizeMax bytes write chunks out ↔ out = (slices, some (.ok ()))) ∧
      ∀ (write : ℕ → Except ε Unit) j e, j < slices.length → (∀ i < j, write i = .ok ()) →
        write j = .error e → ∀ out,
        WriteFragmented usizeMax bytes write chunks out ↔
          out = (slices.take j, some (.error e)) := by
  have hslices : fragments chunks bytes = fragmentLoop chunks bytes 0 0 :=
    if_neg (by simpa using hchunks)
  refine ⟨fragments chunks bytes, ?_, fragments_flatten chunks bytes, ?_, ?_, ?_⟩
  · intro slice hslice
    rw [hslices] at hslice
    exact ne_nil_of_mem_fragmentLoop hslice
  · intro i slice hslice
    rw [hslices] at hslice ⊢
    have hlength := length_getElem_fragmentLoop chunks bytes 0 0 i slice hslice
    rwa [Nat.zero_add, Nat.zero_add] at hlength
  · intro write hwrites out
    have hall : writeEach write 0 (fragments chunks bytes) = (fragments chunks bytes, .ok ()) :=
      writeEach_ok fun j hj => (Nat.zero_add j).symm ▸ hwrites j hj
    rw [writeFragmented_iff hbytes, hall]
  · intro write j e hj hbefore hfails out
    have hfirst : writeEach write 0 (fragments chunks bytes) =
        ((fragments chunks bytes).take j, .error e) :=
      writeEach_error hj (fun i hi => (Nat.zero_add i).symm ▸ hbefore i hi)
        ((Nat.zero_add j).symm ▸ hfails)
    rw [writeFragmented_iff hbytes, hfirst]

/-- A chunk size of zero, and the largest one there is. -/
theorem writeFragmented_exact_extremes :
    ∃ slices : List (List UInt8), slices.flatten = [1, 2, 3] ∧ ∀ out,
      WriteFragmented (ε := String) 18446744073709551615 [1, 2, 3] (fun _ => .ok ())
          [0, 18446744073709551615] out ↔
        out = (slices, some (.ok ())) := by
  obtain ⟨slices, -, hflatten, -, hwrites, -⟩ := @writeFragmented_exact
    String 18446744073709551615 [1, 2, 3] [0, 18446744073709551615] (by decide) (by decide)
  exact ⟨slices, hflatten, hwrites _ fun _ _ => rfl⟩

end TakBench
