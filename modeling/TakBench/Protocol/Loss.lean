import TakBench.Protocol.Inspect
import TakBench.Protocol.Reference

/-!
# What a decode error loses

A push drains each frame from the buffer as it decodes it, and hands the frames over only if no
frame offends. To say which frames the caller gets, each frame is known by the offset in the
stream at which it starts: a frame that a failed push has drained is not found again, since what
later pushes find lies behind it.

## Main definitions

* `locate`: the frames before the one that offends or is not complete, with their offsets
* `deliver`: the frames that the caller gets from push after push, also after errors
* `FirstOffends`: the first frame is the one that offends

## Main results

* `deliver_raw`: the frames delivered are the events that the pushes return
* `locate_append`: the frames of a stream, from those of its parts
* `CotStreamDecoder.delivered_iff`: when a decode error loses no frame
-/

namespace TakBench

open Search Scanner Utf8 CotStreamDecoder

/-- A frame of a stream: the offset at which it starts, and its text. -/
structure Occurrence where
  offset : ℕ
  raw : String
  deriving DecidableEq

variable {ξ : Type} (validateXml : List UInt8 → Except ξ Unit) (maxEventBytes : ℕ)

/-- The complete and valid frames within the limit, up to a frame that offends or is not
complete. The buffer starts at `offset` in the stream. -/
def locate (offset : ℕ) (buffer : List UInt8) : List Occurrence :=
  match _h : position eventOpen buffer with
  | none => []
  | some start =>
    match position eventClose (buffer.drop start) with
    | none => []
    | some close =>
      if maxEventBytes < close + 8 then []
      else
        match validateXml ((buffer.drop start).take (close + 8)) with
        | .error _ => []
        | .ok () =>
          ⟨offset + start, fromUtf8Lossy ((buffer.drop start).take (close + 8))⟩ ::
            locate (offset + start + (close + 8)) ((buffer.drop start).drop (close + 8))
termination_by buffer.length
decreasing_by
  have := position_eventOpen_le _h
  simp only [List.length_drop]
  omega

/-- The frame at the front is over the limit or malformed. -/
def Offends (framed : List UInt8) : Prop :=
  match position eventClose framed with
  | none => maxEventBytes < framed.length
  | some close =>
    maxEventBytes < close + 8 ∨ ∃ e, validateXml (framed.take (close + 8)) = .error e

/-- The first frame is the one that offends. -/
def FirstOffends (bytes : List UInt8) : Prop :=
  ∃ start, position eventOpen bytes = some start ∧
    Offends validateXml maxEventBytes (bytes.drop start)

/-- What each push returns; the caller goes on after an error. -/
def CotStreamDecoder.pushEach (d : CotStreamDecoder) :
    List (List UInt8) → List (Except (DecodeError ξ) (List String))
  | [] => []
  | chunk :: chunks =>
    (push validateXml d chunk).2 :: pushEach (push validateXml d chunk).1 chunks

/-- The frames that the caller gets; `offset` is that of the buffer in the stream. -/
def deliver (offset : ℕ) (d : CotStreamDecoder) : List (List UInt8) → List Occurrence
  | [] => []
  | chunk :: chunks =>
    (match (push validateXml d chunk).2 with
      | .ok _ => locate validateXml d.maxEventBytes offset (d.buffer ++ chunk)
      | .error _ => []) ++
    deliver (offset + ((d.buffer ++ chunk).length - (push validateXml d chunk).1.buffer.length))
      (push validateXml d chunk).1 chunks

variable {validateXml maxEventBytes} {offset : ℕ} {bytes : List UInt8}

section Locate

variable {start close : ℕ}

theorem locate_of_no_open (h : position eventOpen bytes = none) :
    locate validateXml maxEventBytes offset bytes = [] := by
  rw [locate]
  split
  · rfl
  · next h' => rw [h] at h'; cases h'

/-- The search looks at nothing before the first `<event`. -/
theorem locate_of_open (h : position eventOpen bytes = some start) :
    locate validateXml maxEventBytes offset bytes =
      match position eventClose (bytes.drop start) with
      | none => []
      | some close =>
        if maxEventBytes < close + 8 then []
        else
          match validateXml ((bytes.drop start).take (close + 8)) with
          | .error _ => []
          | .ok () =>
            ⟨offset + start, fromUtf8Lossy ((bytes.drop start).take (close + 8))⟩ ::
              locate validateXml maxEventBytes (offset + start + (close + 8))
                ((bytes.drop start).drop (close + 8)) := by
  rw [locate]
  split
  · next h' => rw [h] at h'; cases h'
  · next start' h' =>
    obtain rfl : start = start' := Option.some.inj (h.symm.trans h')
    rfl

/-- A frame that offends or is not complete ends the search. -/
theorem locate_of_end (h : position eventOpen bytes = some start)
    (hend : ∀ close, position eventClose (bytes.drop start) = some close →
      maxEventBytes < close + 8 ∨
        ∃ e, validateXml ((bytes.drop start).take (close + 8)) = .error e) :
    locate validateXml maxEventBytes offset bytes = [] := by
  rw [locate_of_open h]
  split
  · rfl
  · next close hclose =>
    rcases hend close hclose with hbig | ⟨e, he⟩
    · rw [if_pos hbig]
    · rw [he]
      split <;> rfl

/-- A complete and valid frame within the limit is found, and those behind it. -/
theorem locate_of_frame (h : position eventOpen bytes = some start)
    (hclose : position eventClose (bytes.drop start) = some close)
    (hsmall : ¬ maxEventBytes < close + 8)
    (hvalid : validateXml ((bytes.drop start).take (close + 8)) = .ok ()) :
    locate validateXml maxEventBytes offset bytes =
      ⟨offset + start, fromUtf8Lossy ((bytes.drop start).take (close + 8))⟩ ::
        locate validateXml maxEventBytes (offset + start + (close + 8))
          ((bytes.drop start).drop (close + 8)) := by
  rw [locate_of_open h, hclose]
  simp only [if_neg hsmall, hvalid]

/-- The frames of the bytes lie behind their offset. -/
theorem le_offset_of_mem_locate {f : Occurrence}
    (hf : f ∈ locate validateXml maxEventBytes offset bytes) : offset ≤ f.offset := by
  fun_induction locate validateXml maxEventBytes offset bytes with
  | case5 offset buffer start h close hclose hsmall hvalid ih =>
    rcases List.mem_cons.mp hf with rfl | hf
    · exact Nat.le_add_right _ _
    · have := ih hf
      omega
  | _ => simp at hf

end Locate

/-! ## Frames and pushes -/

/-- **What a push does to the frames it finds**: it drains them from the buffer, and returns them
unless a frame offends. The induction follows the loop. -/
theorem pushLoop_locate (validateXml : List UInt8 → Except ξ Unit) (maxEventBytes offset : ℕ)
    (buffer : List UInt8) (events : List String) :
    (pushLoop validateXml maxEventBytes buffer events).1.length ≤ buffer.length ∧
    (∀ f ∈ locate validateXml maxEventBytes offset buffer,
      f.offset + (pushLoop validateXml maxEventBytes buffer events).1.length <
        offset + buffer.length) ∧
    ∀ events', (pushLoop validateXml maxEventBytes buffer events).2 = .ok events' →
      events' = events ++ (locate validateXml maxEventBytes offset buffer).map (·.raw) := by
  fun_induction pushLoop validateXml maxEventBytes buffer events generalizing offset with
  | case1 buffer events h =>
    rw [locate_of_no_open h]
    simp
  -- an event that is not closed, over the limit and not
  | case2 buffer events start h framed hclose hbig =>
    rw [locate_of_end h fun close' hclose' => by cases hclose.symm.trans hclose']
    simp [framed]
  | case3 buffer events start h framed hclose hsmall =>
    rw [locate_of_end h fun close' hclose' => by cases hclose.symm.trans hclose']
    simp [framed]
  -- an event that offends is drained, and no frame
  | case4 buffer events start h framed close hclose stop hbig =>
    rw [locate_of_end h fun close' hclose' => by
      obtain rfl := Option.some.inj (hclose.symm.trans hclose')
      exact .inl hbig]
    refine ⟨?_, by simp, by simp⟩
    simp only [framed, List.length_drop]
    omega
  | case5 buffer events start h framed close hclose stop hsmall e hinvalid =>
    rw [locate_of_end h fun close' hclose' => by
      obtain rfl := Option.some.inj (hclose.symm.trans hclose')
      exact .inr ⟨e, hinvalid⟩]
    refine ⟨?_, by simp, by simp⟩
    simp only [framed, List.length_drop]
    omega
  | case6 buffer events start h framed close hclose stop hsmall hvalid ih =>
    obtain ⟨hle, hbehind, hevents⟩ := ih (offset + start + stop)
    have hopen := position_eventOpen_le h
    have hcle := position_eventClose_le hclose
    -- the loop goes on behind the frame
    have hlength : (framed.drop stop).length + stop + start = buffer.length := by
      simp only [framed, List.length_drop] at hcle ⊢
      omega
    rw [locate_of_frame h hclose hsmall hvalid]
    refine ⟨by omega, ?_, ?_⟩
    · rintro f hf
      rcases List.mem_cons.mp hf with rfl | hf
      · simp only
        omega
      · have := hbehind f hf
        omega
    · intro events' hevents'
      rw [hevents events' hevents', List.map_cons, List.append_assoc]
      rfl

/-- Bytes before which no `<event` starts hold no frame. -/
theorem locate_drop {k : ℕ} (h : ∀ j < k, ¬ eventOpen <+: bytes.drop j) :
    locate validateXml maxEventBytes offset bytes =
      locate validateXml maxEventBytes (offset + k) (bytes.drop k) := by
  have hpos := position_drop h
  cases hp : position eventOpen (bytes.drop k) with
  | none =>
    rw [hp] at hpos
    rw [locate_of_no_open hpos, locate_of_no_open hp]
  | some start =>
    rw [hp, Option.map_some] at hpos
    have hdrop : bytes.drop (start + k) = (bytes.drop k).drop start := by
      rw [List.drop_drop, Nat.add_comm]
    have hoffset : offset + (start + k) = offset + k + start := by omega
    rw [locate_of_open hpos, locate_of_open hp, hdrop, hoffset]

/-- What a scan keeps is not longer than what it scans. -/
theorem length_kept_le {xs kept : List UInt8} {found : List String}
    (h : scan validateXml maxEventBytes xs = .ok (found, kept)) : kept.length ≤ xs.length := by
  have hle := (pushLoop_locate validateXml maxEventBytes 0 xs []).1
  rwa [pushLoop_of_scan h] at hle

/-- The frames of a stream are still there when more of it is known. -/
theorem locate_mono (offset : ℕ) (xs ys : List UInt8) :
    locate validateXml maxEventBytes offset xs <+:
      locate validateXml maxEventBytes offset (xs ++ ys) := by
  fun_induction locate validateXml maxEventBytes offset xs with
  | case5 offset xs start hopen close hclose hmax hvalid ih =>
    have hopen' : position eventOpen (xs ++ ys) = some start := position_append_of_some ys hopen
    have hstart : start ≤ xs.length := by
      have := position_eventOpen_le hopen
      omega
    have hdrop : (xs ++ ys).drop start = xs.drop start ++ ys := List.drop_append_of_le_length hstart
    have hclose' : position eventClose ((xs ++ ys).drop start) = some close := by
      rw [hdrop]
      exact position_append_of_some ys hclose
    have hstop : close + 8 ≤ (xs.drop start).length := position_eventClose_le hclose
    have htake : ((xs ++ ys).drop start).take (close + 8) = (xs.drop start).take (close + 8) := by
      rw [hdrop, List.take_append_of_le_length hstop]
    rw [locate_of_frame hopen' hclose' hmax (htake ▸ hvalid), htake, hdrop,
      List.drop_append_of_le_length hstop]
    exact (List.prefix_cons_inj _).mpr ih
  | _ => exact List.nil_prefix

/-- **The frames of a stream**: those of its first part, and those of the bytes that the first
part leaves in the buffer together with the rest. The induction is on the bytes of the first part,
as in `scan_lawful`. -/
theorem locate_append {xs kept : List UInt8} {found : List String} (ys : List UInt8)
    (h : scan validateXml maxEventBytes xs = .ok (found, kept)) :
    locate validateXml maxEventBytes offset (xs ++ ys) =
      locate validateXml maxEventBytes offset xs ++
        locate validateXml maxEventBytes (offset + (xs.length - kept.length)) (kept ++ ys) := by
  induction hn : xs.length using Nat.strongRecOn generalizing xs found offset with
  | _ n ih =>
    cases hopen : position eventOpen xs with
    | none =>
      rw [scan_of_no_open hopen] at h
      obtain ⟨rfl, rfl⟩ := Prod.mk.inj (Except.ok.inj h)
      rw [locate_of_no_open hopen, List.nil_append]
      have hfree : ∀ j < xs.length - 5, ¬ eventOpen <+: (xs ++ ys).drop j := by
        intro j hj hp
        refine position_eq_none_iff.mp hopen j (prefix_drop_of_append hp ?_)
        rw [eventOpen_length]
        omega
      rw [locate_drop hfree, List.drop_append_of_le_length (by omega), List.length_drop]
      congr 1
      omega
    | some start =>
      have hle := position_eventOpen_le hopen
      have hopen' := position_append_of_some ys hopen
      have hdrop : (xs ++ ys).drop start = xs.drop start ++ ys :=
        List.drop_append_of_le_length (by omega)
      rw [scan_of_open hopen] at h
      cases hclose : position eventClose (xs.drop start) with
      | none =>
        -- the open frame is searched again from its `<event`
        rw [hclose] at h
        simp only at h
        split at h
        · cases h
        · obtain ⟨rfl, rfl⟩ := Prod.mk.inj (Except.ok.inj h)
          have hkept : n - (xs.drop start).length = start := by
            rw [List.length_drop]
            omega
          have hend : locate validateXml maxEventBytes offset xs = [] :=
            locate_of_end hopen fun close hclose' => by cases hclose.symm.trans hclose'
          rw [hend, List.nil_append, locate_drop (position_eq_some_iff.mp hopen').2, hdrop, hkept]
      | some close =>
        have hcle := position_eventClose_le hclose
        have hclose' := position_append_of_some ys hclose
        rw [← hdrop] at hclose'
        rw [hclose] at h
        simp only at h
        split at h
        · cases h
        · next hsmall =>
          split at h
          · cases h
          · next hvalid =>
            have hvalid' : validateXml (((xs ++ ys).drop start).take (close + 8)) = .ok () := by
              rw [hdrop, List.take_append_of_le_length hcle, hvalid]
            rw [locate_of_frame hopen hclose hsmall hvalid,
              locate_of_frame hopen' hclose' hsmall hvalid', hdrop,
              List.take_append_of_le_length hcle, List.drop_append_of_le_length hcle]
            cases hs : scan validateXml maxEventBytes ((xs.drop start).drop (close + 8)) with
            | error e => rw [hs] at h; cases h
            | ok p =>
              obtain ⟨found', kept'⟩ := p
              rw [hs] at h
              obtain ⟨rfl, rfl⟩ := Prod.mk.inj (Except.ok.inj h)
              have hkept := length_kept_le hs
              rw [ih _ (by simp only [List.length_drop]; omega) hs rfl, List.cons_append]
              congr 3
              simp only [List.length_drop] at hkept hcle ⊢
              omega

/-! ## What the caller gets -/

section Deliver

variable {d d' : CotStreamDecoder} {chunk : List UInt8} {chunks : List (List UInt8)}

/-- **The frames delivered are the events that the pushes return.** -/
theorem deliver_raw (offset : ℕ) (d : CotStreamDecoder) (chunks : List (List UInt8)) :
    (deliver validateXml offset d chunks).map (·.raw) =
      (pushEach validateXml d chunks).flatMap fun
        | .ok events => events
        | .error _ => [] := by
  induction chunks generalizing offset d with
  | nil => rfl
  | cons chunk chunks ih =>
    rw [deliver, pushEach, List.map_append, List.flatMap_cons, ih]
    congr 1
    have hfound := (pushLoop_locate validateXml d.maxEventBytes offset (d.buffer ++ chunk) []).2.2
    cases hresult : (push validateXml d chunk).2 with
    | error e => rfl
    | ok events => exact (hfound events hresult).symm

theorem le_offset_of_mem_deliver {f : Occurrence}
    (hf : f ∈ deliver validateXml offset d chunks) : offset ≤ f.offset := by
  induction chunks generalizing offset d with
  | nil => cases hf
  | cons chunk chunks ih =>
    rw [deliver, List.mem_append] at hf
    rcases hf with hf | hf
    · split at hf
      · exact le_offset_of_mem_locate hf
      · cases hf
    · exact (Nat.le_add_right _ _).trans (ih hf)

/-- A failed push drains its frames, and what later pushes find lies behind them. -/
theorem notMem_deliver_of_error {e : DecodeError ξ} {f : Occurrence}
    (h : (push validateXml d chunk).2 = .error e) (later : List (List UInt8))
    (hf : f ∈ locate validateXml d.maxEventBytes offset (d.buffer ++ chunk)) :
    f ∉ deliver validateXml offset d (chunk :: later) := by
  intro hdelivered
  obtain ⟨hle, hbehind, -⟩ := pushLoop_locate validateXml d.maxEventBytes offset
    (d.buffer ++ chunk) []
  have hdrained := hbehind f hf
  rw [deliver, h, List.nil_append] at hdelivered
  have hlater := le_offset_of_mem_deliver hdelivered
  have hbuffer : (push validateXml d chunk).1.buffer =
      (pushLoop validateXml d.maxEventBytes (d.buffer ++ chunk) []).1 := rfl
  rw [hbuffer] at hlater
  omega

/-- While no push fails, the caller gets the frames of the stream, up to those of the bytes that
are still in the buffer. -/
theorem locate_of_pushAll {events : List String} (offset : ℕ)
    (h : pushAll validateXml d chunks = (d', .ok events)) (ys : List UInt8) :
    ∃ offset', locate validateXml d.maxEventBytes offset (d.buffer ++ (chunks.flatten ++ ys)) =
        deliver validateXml offset d chunks ++
          locate validateXml d.maxEventBytes offset' (d'.buffer ++ ys) ∧
      (deliver validateXml offset d chunks).map (·.raw) = events := by
  induction chunks generalizing offset d events with
  | nil =>
    obtain ⟨rfl, hevents⟩ := Prod.mk.inj h
    exact ⟨offset, rfl, Except.ok.inj hevents⟩
  | cons chunk chunks ih =>
    obtain ⟨d₁, found, found', hp, hq, rfl⟩ := exists_of_pushAll_cons h
    have hscan := push_eq_scan validateXml d chunk
    have hmax : d₁.maxEventBytes = d.maxEventBytes := (congrArg (·.1.maxEventBytes) hp).symm
    -- a push that succeeds returns all the frames in its buffer
    have hfound := (pushLoop_locate validateXml d.maxEventBytes offset
      (d.buffer ++ chunk) []).2.2 found (congrArg Prod.snd hp)
    rw [hp] at hscan
    obtain ⟨offset', hlocate, hraw⟩ := ih _ hq
    rw [hmax] at hlocate
    refine ⟨offset', ?_, ?_⟩
    · rw [List.flatten_cons, List.append_assoc, ← List.append_assoc, locate_append _ hscan.symm,
        hlocate, deliver, hp, List.append_assoc]
    · rw [deliver, hp, List.map_append, hraw]
      exact congrArg (· ++ found') hfound.symm

end Deliver

/-! ## When an error loses nothing -/

/-- A push that fails finds no frame exactly when the first one offends. -/
theorem locate_eq_nil_iff {e : DecodeError ξ}
    (h : scan validateXml maxEventBytes bytes = .error e) :
    locate validateXml maxEventBytes offset bytes = [] ↔
      FirstOffends validateXml maxEventBytes bytes := by
  cases hopen : position eventOpen bytes with
  | none =>
    rw [scan_of_no_open hopen] at h
    cases h
  | some start =>
    have hfirst : FirstOffends validateXml maxEventBytes bytes ↔
        Offends validateXml maxEventBytes (bytes.drop start) := by
      simp [FirstOffends, hopen]
    rw [hfirst, Offends]
    rw [scan_of_open hopen] at h
    cases hclose : position eventClose (bytes.drop start) with
    | none =>
      -- the scan fails, so the event is over the limit
      have hend : locate validateXml maxEventBytes offset bytes = [] :=
        locate_of_end hopen fun close hclose' => (by cases hclose.symm.trans hclose')
      rw [hclose] at h
      simp only at h
      split at h
      · next hbig => exact iff_of_true hend hbig
      · cases h
    | some close =>
      simp only
      by_cases hoffends : maxEventBytes < close + 8 ∨
          ∃ e, validateXml ((bytes.drop start).take (close + 8)) = .error e
      · refine iff_of_true (locate_of_end hopen fun close' hclose' => ?_) hoffends
        obtain rfl := Option.some.inj (hclose.symm.trans hclose')
        exact hoffends
      · refine iff_of_false ?_ hoffends
        rw [not_or, not_exists] at hoffends
        cases hvalid : validateXml ((bytes.drop start).take (close + 8)) with
        | error e => exact absurd hvalid (hoffends.2 e)
        | ok _ =>
          rw [locate_of_frame hopen hclose hoffends.1 hvalid]
          exact List.cons_ne_nil _ _

/-- **When a decode error loses no frame.** The frames before the offending one reach the caller
exactly when there is none; and a reader that has read the stream up to the error has got all of
its frames, in whatever segments it came, exactly when the push that failed lost none. -/
theorem CotStreamDecoder.delivered_iff {d : CotStreamDecoder} {chunk : List UInt8}
    {e : DecodeError ξ} (h : (push validateXml d chunk).2 = .error e) :
    (∀ offset later,
      (∀ f ∈ locate validateXml d.maxEventBytes offset (d.buffer ++ chunk),
        f ∈ deliver validateXml offset d (chunk :: later)) ↔
      FirstOffends validateXml d.maxEventBytes (d.buffer ++ chunk)) ∧
    ∀ chunks events, pushAll validateXml (new d.maxEventBytes) chunks = (d, .ok events) →
      (events = (locate validateXml d.maxEventBytes 0 (chunks.flatten ++ chunk)).map (·.raw) ↔
        FirstOffends validateXml d.maxEventBytes (d.buffer ++ chunk)) := by
  have herror : scan validateXml d.maxEventBytes (d.buffer ++ chunk) = .error e := by
    rw [← push_eq_scan, h]
    rfl
  constructor
  · intro offset later
    rw [← locate_eq_nil_iff herror]
    constructor
    · -- a push that fails delivers none of its frames, and no later one does
      intro hall
      refine List.eq_nil_iff_forall_not_mem.mpr fun f hf => ?_
      exact notMem_deliver_of_error h later hf (hall f hf)
    · intro hnil f hf
      rw [hnil] at hf
      cases hf
  · intro chunks events hpushed
    -- the frames of the stream are those delivered, followed by those of the push that fails
    obtain ⟨offset', hlocate, hraw⟩ := locate_of_pushAll 0 hpushed chunk
    have hstream : locate validateXml d.maxEventBytes 0 (chunks.flatten ++ chunk) =
        deliver validateXml 0 (new d.maxEventBytes) chunks ++
          locate validateXml d.maxEventBytes offset' (d.buffer ++ chunk) := hlocate
    rw [hstream, List.map_append, hraw, List.self_eq_append_right, List.map_eq_nil_iff]
    exact locate_eq_nil_iff herror

/-! ## A valid event before a malformed one -/

namespace Reference

/-- A valid event. -/
def valid : List UInt8 := asBytes "<event></event>"

/-- A malformed event: a tag in it closes one that is not open. -/
def malformed : List UInt8 := asBytes "<event></x></event>"

/-- The check of a frame. -/
abbrev check : List UInt8 → Except Unit Unit := TakBench.validateXml platform

theorem check_valid : check valid = .ok () := by decide

theorem check_malformed : check malformed = .error () := by decide

/-- The malformed event ends the search. -/
theorem locate_malformed (offset : ℕ) : locate check (8 * 1024 * 1024) offset malformed = [] := by
  have hopen : position eventOpen malformed = some 0 := by decide
  have hfound : position eventClose (malformed.drop 0) = some 11 := by decide
  refine locate_of_end hopen fun close hclose => .inr ⟨(), ?_⟩
  obtain rfl : 11 = close := Option.some.inj (hfound.symm.trans hclose)
  exact check_malformed

/-- A push of a valid event and a malformed one fails. -/
theorem push_valid_malformed :
    (push check (new (8 * 1024 * 1024)) (valid ++ malformed)).2 = .error (.xml ()) := by
  have hmalformed : scan check (8 * 1024 * 1024) malformed = .error (.xml ()) := by
    have hopen : position eventOpen malformed = some 0 := by decide
    have hclose : position eventClose (malformed.drop 0) = some 11 := by decide
    rw [scan_of_open hopen, hclose]
    simp only
    rw [if_neg (by decide), show (malformed.drop 0).take (11 + 8) = malformed from rfl,
      check_malformed]
  have hscan : scan check (8 * 1024 * 1024) (valid ++ malformed) = .error (.xml ()) := by
    have hopen : position eventOpen (valid ++ malformed) = some 0 := by decide
    have hclose : position eventClose ((valid ++ malformed).drop 0) = some 7 := by decide
    rw [scan_of_open hopen, hclose]
    simp only
    rw [if_neg (by decide), show ((valid ++ malformed).drop 0).take (7 + 8) = valid from rfl,
      check_valid, show ((valid ++ malformed).drop 0).drop (7 + 8) = malformed from rfl]
    simp only
    rw [hmalformed]
    rfl
  exact push_of_scan_error hscan

/-- A push of the valid event alone. -/
theorem push_valid : push check (new (8 * 1024 * 1024)) valid =
    (new (8 * 1024 * 1024), .ok ["<event></event>"]) := by
  have hopen : position eventOpen valid = some 0 := by decide
  have hclose : position eventClose (valid.drop 0) = some 7 := by decide
  refine push_of_scan ?_
  rw [show (new (8 * 1024 * 1024)).buffer ++ valid = valid from rfl, scan_of_open hopen, hclose]
  simp only
  rw [if_neg (by decide), show (valid.drop 0).take (7 + 8) = valid from rfl, check_valid,
    show (valid.drop 0).drop (7 + 8) = [] from rfl]
  simp only
  rw [scan_nil, prepend_ok, valid, fromUtf8Lossy_asBytes]
  rfl

/-- The valid event is found in front of any bytes that follow it. -/
theorem locate_valid (offset : ℕ) (rest : List UInt8)
    (hopen : position eventOpen (valid ++ rest) = some 0)
    (hclose : position eventClose ((valid ++ rest).drop 0) = some 7)
    (hrest : locate check (8 * 1024 * 1024) (offset + 0 + (7 + 8)) rest = []) :
    locate check (8 * 1024 * 1024) offset (valid ++ rest) = [⟨offset, "<event></event>"⟩] := by
  have htake : ((valid ++ rest).drop 0).take (7 + 8) = valid :=
    List.take_left' (by decide)
  have hdrop : ((valid ++ rest).drop 0).drop (7 + 8) = rest :=
    List.drop_left' (by decide)
  rw [locate_of_frame hopen hclose (by decide) (by rw [htake, check_valid]), htake, hdrop, hrest,
    valid, fromUtf8Lossy_asBytes]
  rfl

end Reference

/-- A push fails behind a valid event, and the event is lost. -/
theorem CotStreamDecoder.delivered_iff_reference :
    (push Reference.check (new (8 * 1024 * 1024)) (Reference.valid ++ Reference.malformed)).2 =
      .error (.xml ()) ∧
    ((∀ f ∈ locate Reference.check (8 * 1024 * 1024) 0 (Reference.valid ++ Reference.malformed),
      f ∈ deliver Reference.check 0 (new (8 * 1024 * 1024))
        [Reference.valid ++ Reference.malformed]) ↔
      FirstOffends Reference.check (8 * 1024 * 1024)
        (Reference.valid ++ Reference.malformed)) ∧
    ([] = (locate Reference.check (8 * 1024 * 1024) 0
        (Reference.valid ++ Reference.malformed)).map (·.raw) ↔
      FirstOffends Reference.check (8 * 1024 * 1024)
        (Reference.valid ++ Reference.malformed)) := by
  obtain ⟨hdelivered, hread⟩ := CotStreamDecoder.delivered_iff Reference.push_valid_malformed
  exact ⟨Reference.push_valid_malformed, hdelivered 0 [], hread [] [] rfl⟩

/-- The valid event is found in the stream, and the caller never gets it if the malformed event
comes in the same segment; it does if the events come in segments of their own. -/
theorem CotStreamDecoder.push_loses :
    (push Reference.check (new (8 * 1024 * 1024)) (Reference.valid ++ Reference.malformed)).2 =
      .error (.xml ()) ∧
    (∃ f ∈ locate Reference.check (8 * 1024 * 1024) 0 (Reference.valid ++ Reference.malformed),
      f.raw = "<event></event>" ∧
      ∀ later, f ∉ deliver Reference.check 0 (new (8 * 1024 * 1024))
        ((Reference.valid ++ Reference.malformed) :: later)) ∧
    deliver Reference.check 0 (new (8 * 1024 * 1024))
        [Reference.valid ++ Reference.malformed] = [] ∧
    deliver Reference.check 0 (new (8 * 1024 * 1024)) [Reference.valid, Reference.malformed] =
      [⟨0, "<event></event>"⟩] := by
  have hlocate : locate Reference.check (8 * 1024 * 1024) 0
      (Reference.valid ++ Reference.malformed) = [⟨0, "<event></event>"⟩] :=
    Reference.locate_valid 0 _ (by decide) (by decide) (Reference.locate_malformed _)
  have hvalid : locate Reference.check (8 * 1024 * 1024) 0 Reference.valid =
      [⟨0, "<event></event>"⟩] := by
    have hrest : locate Reference.check (8 * 1024 * 1024) (0 + 0 + (7 + 8)) [] = [] :=
      locate_of_no_open (by decide)
    have hfront := Reference.locate_valid 0 [] (by decide) (by decide) hrest
    rwa [List.append_nil] at hfront
  have herror := Reference.push_valid_malformed
  refine ⟨herror, ⟨⟨0, "<event></event>"⟩, ?_, rfl, fun later => ?_⟩, ?_, ?_⟩
  · rw [hlocate]
    exact List.mem_singleton_self _
  · refine notMem_deliver_of_error herror later ?_
    exact hlocate ▸ List.mem_singleton_self _
  · rw [deliver, herror]
    rfl
  · have hmalformed : deliver Reference.check 15 (new (8 * 1024 * 1024)) [Reference.malformed] =
        [] := by
      rw [deliver, deliver, List.append_nil]
      split
      · exact Reference.locate_malformed 15
      · rfl
    rw [deliver, Reference.push_valid]
    exact congrArg₂ (· ++ ·) hvalid hmalformed

end TakBench
