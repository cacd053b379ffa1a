import TakBench.Library.Scanner
import TakBench.Library.Search
import TakBench.Library.Utf8

/-!
# The incremental event decoder

`CotStreamDecoder` collects complete `<event>…</event>` documents from a TCP stream. One push
appends the bytes read to the buffer and loops: drop the bytes before `<event`, cut off the frame
up to the first `</event>`, check its size and its XML, go on with the rest. XML checking is the
parameter `validateXml`, a function of the bytes of the frame.

Seen as a scanner of byte lists the loop is lawful, so the segmentation of the stream is invisible.

## Main definitions

* `CotStreamDecoder.push`: one read
* `CotStreamDecoder.pushAll`: the reads of a stream, up to the first error
* `scan`: the loop as a scanner

## Main results

* `scan_lawful`: scanning more bytes continues an earlier scan
* `CotStreamDecoder.push_chunks`: chunk by chunk or in one push, the outcome is the same
-/

namespace TakBench

open Search Scanner Utf8

/-- Why a push fails; `ξ` is the error of the XML reader. -/
inductive DecodeError (ξ : Type) where
  | frameTooLarge (limit : ℕ)
  | xml (source : ξ)
  deriving DecidableEq

/-- The decoder's buffer and its bound on an event. -/
structure CotStreamDecoder where
  buffer : List UInt8
  maxEventBytes : ℕ

/-- The bytes `<event`. -/
def eventOpen : List UInt8 := asBytes "<event"

/-- The bytes `</event>`. -/
def eventClose : List UInt8 := asBytes "</event>"

theorem eventOpen_eq : eventOpen = [60, 101, 118, 101, 110, 116] := by decide

@[simp] theorem eventOpen_length : eventOpen.length = 6 := by decide

@[simp] theorem eventClose_length : eventClose.length = 8 := by decide

theorem position_eventOpen_le {xs : List UInt8} {i : ℕ} (h : position eventOpen xs = some i) :
    i + 6 ≤ xs.length :=
  (add_length_le_of_position h).resolve_right (by decide)

theorem position_eventClose_le {xs : List UInt8} {i : ℕ} (h : position eventClose xs = some i) :
    i + 8 ≤ xs.length :=
  (add_length_le_of_position h).resolve_right (by decide)

variable {ξ : Type} (validateXml : List UInt8 → Except ξ Unit) (maxEventBytes : ℕ)

namespace CotStreamDecoder

/-- `CotStreamDecoder::new`. -/
def new : CotStreamDecoder := ⟨[], maxEventBytes⟩

/-- The loop of `push`: the buffer it leaves and its result. -/
def pushLoop (buffer : List UInt8) (events : List String) :
    List UInt8 × Except (DecodeError ξ) (List String) :=
  match h : position eventOpen buffer with
  -- five trailing bytes are enough for a split `<event` marker
  | none => (buffer.drop (buffer.length - 5), .ok events)
  | some start =>
    let framed := buffer.drop start
    match position eventClose framed with
    | none =>
      if maxEventBytes < framed.length then (framed, .error (.frameTooLarge maxEventBytes))
      else (framed, .ok events)
    | some close =>
      let stop := close + 8
      if maxEventBytes < stop then (framed.drop stop, .error (.frameTooLarge maxEventBytes))
      else
        match validateXml (framed.take stop) with
        | .error e => (framed.drop stop, .error (.xml e))
        | .ok () => pushLoop (framed.drop stop) (events ++ [fromUtf8Lossy (framed.take stop)])
termination_by buffer.length
decreasing_by
  have := position_eventOpen_le h
  simp only [List.length_drop]
  omega

/-- One read: the decoder afterwards, and the events completed or the error. -/
def push (d : CotStreamDecoder) (bytes : List UInt8) :
    CotStreamDecoder × Except (DecodeError ξ) (List String) :=
  let (buffer, result) := pushLoop validateXml d.maxEventBytes (d.buffer ++ bytes) []
  ({ d with buffer }, result)

/-- The reads of a stream, one push a chunk; the first error ends them. -/
def pushAll (d : CotStreamDecoder) :
    List (List UInt8) → CotStreamDecoder × Except (DecodeError ξ) (List String)
  | [] => (d, .ok [])
  | chunk :: chunks =>
    match push validateXml d chunk with
    | (d', .error e) => (d', .error e)
    | (d', .ok events) =>
      match pushAll d' chunks with
      | (d'', .error e) => (d'', .error e)
      | (d'', .ok events') => (d'', .ok (events ++ events'))

/-- The accumulator of the loop only stands in front of the events it returns. -/
theorem pushLoop_events (buffer : List UInt8) (events : List String) :
    pushLoop validateXml maxEventBytes buffer events =
      ((pushLoop validateXml maxEventBytes buffer []).1,
        (pushLoop validateXml maxEventBytes buffer []).2.map (events ++ ·)) := by
  induction hn : buffer.length using Nat.strongRecOn generalizing buffer events with
  | _ n ih =>
    rw [pushLoop, pushLoop]
    split
    · simp [Except.map]
    · next start h =>
      have := position_eventOpen_le h
      simp only
      split
      · split <;> simp [Except.map]
      · next close _ =>
        split
        · simp [Except.map]
        · split
          · simp [Except.map]
          · -- the loop goes on with a shorter buffer
            have hlt : ((buffer.drop start).drop (close + 8)).length < n := by
              simp only [List.length_drop]
              omega
            rw [ih _ hlt _ (events ++ _) rfl, ih _ hlt _ ([] ++ _) rfl]
            cases (pushLoop validateXml maxEventBytes
              ((buffer.drop start).drop (close + 8)) []).2 <;>
              simp [Except.map]

end CotStreamDecoder

open CotStreamDecoder

/-! ## The loop as a scanner -/

/-- The loop as a scanner: the events found and the bytes kept, or the error. -/
def scan (bytes : List UInt8) : Except (DecodeError ξ) (List String × List UInt8) :=
  (pushLoop validateXml maxEventBytes bytes []).2.map
    fun events => (events, (pushLoop validateXml maxEventBytes bytes []).1)

section Scan

variable {validateXml maxEventBytes} {xs : List UInt8} {start close : ℕ}

theorem scan_of_no_open (h : position eventOpen xs = none) :
    scan validateXml maxEventBytes xs = .ok ([], xs.drop (xs.length - 5)) := by
  rw [scan, pushLoop]
  split
  · rfl
  · next h' => rw [h] at h'; cases h'

/-- The loop looks at nothing before the first `<event`. -/
theorem scan_of_open (h : position eventOpen xs = some start) :
    scan validateXml maxEventBytes xs =
      match position eventClose (xs.drop start) with
      | none =>
        if maxEventBytes < (xs.drop start).length then .error (.frameTooLarge maxEventBytes)
        else .ok ([], xs.drop start)
      | some close =>
        if maxEventBytes < close + 8 then .error (.frameTooLarge maxEventBytes)
        else
          match validateXml ((xs.drop start).take (close + 8)) with
          | .error e => .error (.xml e)
          | .ok () => prepend [fromUtf8Lossy ((xs.drop start).take (close + 8))]
              (scan validateXml maxEventBytes ((xs.drop start).drop (close + 8))) := by
  rw [scan, pushLoop]
  split
  · next h' => rw [h] at h'; cases h'
  · next start' h' =>
    obtain rfl : start = start' := Option.some.inj (h.symm.trans h')
    simp only
    split
    · split <;> simp [Except.map]
    · next close _ =>
      split
      · simp [Except.map]
      · split
        · simp [Except.map]
        · rw [pushLoop_events, scan]
          cases (pushLoop validateXml maxEventBytes ((xs.drop start).drop (close + 8)) []).2 <;>
            simp [Except.map, prepend]

/-- Bytes before which no `<event` starts are dropped unseen. -/
theorem scan_drop {k : ℕ} (h : ∀ j < k, ¬ eventOpen <+: xs.drop j) (hk : k + 5 ≤ xs.length) :
    scan validateXml maxEventBytes xs = scan validateXml maxEventBytes (xs.drop k) := by
  have hpos := position_drop h
  cases hp : position eventOpen (xs.drop k) with
  | none =>
    rw [hp] at hpos
    rw [scan_of_no_open hpos, scan_of_no_open hp, List.drop_drop, List.length_drop]
    congr 3
    omega
  | some start =>
    rw [hp, Option.map_some] at hpos
    rw [scan_of_open hpos, scan_of_open hp, List.drop_drop, Nat.add_comm k start]

variable (validateXml maxEventBytes)

/-- **Scanning more bytes continues an earlier scan.** The induction is on the bytes scanned: a
complete frame is the same frame in the longer input, an open frame is scanned again from its
`<event`, and of bytes without `<event` only the last five can matter. -/
theorem scan_lawful : Lawful (scan validateXml maxEventBytes) := by
  have key : ∀ (xs ys : List UInt8),
      match scan validateXml maxEventBytes xs with
      | .error e => scan validateXml maxEventBytes (xs ++ ys) = .error e
      | .ok (found, kept) => scan validateXml maxEventBytes (xs ++ ys) =
          prepend found (scan validateXml maxEventBytes (kept ++ ys)) := by
    intro xs ys
    induction hn : xs.length using Nat.strongRecOn generalizing xs with
    | _ n ih =>
      cases hopen : position eventOpen xs with
      | none =>
        rw [scan_of_no_open hopen]
        simp only [prepend_nil]
        by_cases hlen : 5 ≤ xs.length
        · have hfree : ∀ j < xs.length - 5, ¬ eventOpen <+: (xs ++ ys).drop j := by
            intro j hj hp
            refine position_eq_none_iff.mp hopen j (prefix_drop_of_append hp ?_)
            rw [eventOpen_length]
            omega
          rw [scan_drop hfree (by rw [List.length_append]; omega),
            List.drop_append_of_le_length (by omega)]
        · rw [show xs.length - 5 = 0 by omega, List.drop_zero]
      | some start =>
        have hle := position_eventOpen_le hopen
        have hopen' := position_append_of_some ys hopen
        have hdrop : (xs ++ ys).drop start = xs.drop start ++ ys :=
          List.drop_append_of_le_length (by omega)
        cases hclose : position eventClose (xs.drop start) with
        | none =>
          rw [scan_of_open hopen, hclose]
          simp only
          by_cases hbig : maxEventBytes < (xs.drop start).length
          · rw [if_pos hbig, scan_of_open hopen', hdrop]
            -- whether or not the frame is complete now, it is longer than the limit
            cases hclose' : position eventClose (xs.drop start ++ ys) with
            | none => simp only; rw [if_pos (by rw [List.length_append]; omega)]
            | some close =>
              have hlate : (xs.drop start).length < close + 8 := by
                by_contra hearly
                refine position_eq_none_iff.mp hclose close
                  (prefix_drop_of_append (prefix_of_position hclose') ?_)
                rw [eventClose_length]
                omega
              simp only
              rw [if_pos (by omega)]
          · have hagain : position eventOpen (xs.drop start ++ ys) = some 0 :=
              position_eq_zero_iff.mpr
                ((prefix_of_position hopen).trans (List.prefix_append _ _))
            rw [if_neg hbig]
            simp only [prepend_nil]
            rw [scan_of_open hopen', scan_of_open hagain, hdrop, List.drop_zero]
        | some close =>
          have hcle := position_eventClose_le hclose
          have hclose' := position_append_of_some ys hclose
          rw [scan_of_open hopen, scan_of_open hopen', hdrop, hclose, hclose']
          simp only
          rw [List.take_append_of_le_length hcle, List.drop_append_of_le_length hcle]
          by_cases hbig : maxEventBytes < close + 8
          · rw [if_pos hbig, if_pos hbig]
          · rw [if_neg hbig, if_neg hbig]
            cases validateXml ((xs.drop start).take (close + 8)) with
            | error e => rfl
            | ok _ =>
              have hrest := ih _ (by simp only [List.length_drop]; omega)
                ((xs.drop start).drop (close + 8)) rfl
              simp only
              cases hs : scan validateXml maxEventBytes ((xs.drop start).drop (close + 8)) with
              | error e =>
                rw [hs] at hrest
                rw [hrest]
                rfl
              | ok p =>
                rw [hs] at hrest
                rw [hrest, prepend_prepend]
                rfl
  constructor
  · intro xs found kept ys h
    simpa [h] using key xs ys
  · intro xs e ys h
    simpa [h] using key xs ys

/-- A fresh scanner keeps nothing. -/
theorem scan_nil : scan validateXml maxEventBytes [] = .ok ([], []) :=
  scan_of_no_open (by decide)

end Scan

/-! ## Segmentation of the stream -/

namespace CotStreamDecoder

theorem push_eq_scan (d : CotStreamDecoder) (bytes : List UInt8) :
    (push validateXml d bytes).2.map (fun events =>
        (events, (push validateXml d bytes).1.buffer)) =
      scan validateXml d.maxEventBytes (d.buffer ++ bytes) := rfl

@[simp] theorem push_maxEventBytes (d : CotStreamDecoder) (bytes : List UInt8) :
    (push validateXml d bytes).1.maxEventBytes = d.maxEventBytes := rfl

section PushOfScan

variable {validateXml maxEventBytes} {d : CotStreamDecoder} {bytes kept : List UInt8}
  {found : List String}

theorem pushLoop_of_scan (h : scan validateXml maxEventBytes bytes = .ok (found, kept)) :
    pushLoop validateXml maxEventBytes bytes [] = (kept, .ok found) := by
  rw [scan] at h
  generalize pushLoop validateXml maxEventBytes bytes [] = result at h ⊢
  obtain ⟨buffer, result⟩ := result
  cases result with
  | error e => cases h
  | ok events =>
    obtain ⟨rfl, rfl⟩ := Prod.mk.inj (Except.ok.inj h)
    rfl

/-- A push that succeeds keeps what the scan keeps. -/
theorem push_of_scan
    (h : scan validateXml d.maxEventBytes (d.buffer ++ bytes) = .ok (found, kept)) :
    push validateXml d bytes = (⟨kept, d.maxEventBytes⟩, .ok found) := by
  rw [push, pushLoop_of_scan h]

theorem push_of_scan_error {e : DecodeError ξ}
    (h : scan validateXml d.maxEventBytes (d.buffer ++ bytes) = .error e) :
    (push validateXml d bytes).2 = .error e := by
  rw [← push_eq_scan] at h
  cases hresult : (push validateXml d bytes).2 with
  | error e' =>
    rw [hresult] at h
    exact congrArg Except.error (Except.error.inj h)
  | ok events =>
    rw [hresult] at h
    cases h

end PushOfScan

/-- While no push fails, the events of a push come before those of the later ones. -/
theorem exists_of_pushAll_cons {validateXml : List UInt8 → Except ξ Unit}
    {d d' : CotStreamDecoder} {chunk : List UInt8} {chunks : List (List UInt8)}
    {events : List String}
    (h : pushAll validateXml d (chunk :: chunks) = (d', .ok events)) :
    ∃ d₁ found found', push validateXml d chunk = (d₁, .ok found) ∧
      pushAll validateXml d₁ chunks = (d', .ok found') ∧ events = found ++ found' := by
  rw [pushAll] at h
  split at h
  · cases h
  · next d₁ found hp =>
    split at h
    · cases h
    · next d₂ found' hq =>
      obtain ⟨rfl, hevents⟩ := Prod.mk.inj h
      exact ⟨d₁, found, found', hp, hq, (Except.ok.inj hevents).symm⟩

/-- The reads of a stream are an incremental run of the scanner. -/
theorem pushAll_eq_feed (d : CotStreamDecoder) (chunks : List (List UInt8)) :
    (pushAll validateXml d chunks).2.map (fun events =>
        (events, (pushAll validateXml d chunks).1.buffer)) =
      feed (scan validateXml d.maxEventBytes) d.buffer chunks := by
  induction chunks generalizing d with
  | nil => rfl
  | cons chunk chunks ih =>
    rw [pushAll, feed, ← push_eq_scan]
    have ih' := ih (push validateXml d chunk).1
    rw [push_maxEventBytes] at ih'
    cases hp : push validateXml d chunk with
    | mk d' r =>
      rw [hp] at ih'
      cases r with
      | error e => rfl
      | ok events =>
        simp only [Except.map] at ih' ⊢
        rw [← ih']
        cases hq : pushAll validateXml d' chunks with
        | mk d'' r' => cases r' <;> rfl

/-- **Segmentation is invisible.** Feeding the chunks of a stream to a fresh decoder one by one
fails exactly as one push of the whole stream does, and otherwise returns the same events and
leaves the same buffer. -/
theorem push_chunks (chunks : List (List UInt8)) :
    (pushAll validateXml (new maxEventBytes) chunks).2 =
        (push validateXml (new maxEventBytes) chunks.flatten).2 ∧
      ∀ events, (pushAll validateXml (new maxEventBytes) chunks).2 = .ok events →
        (pushAll validateXml (new maxEventBytes) chunks).1.buffer =
          (push validateXml (new maxEventBytes) chunks.flatten).1.buffer := by
  have hfeed := pushAll_eq_feed validateXml (new maxEventBytes) chunks
  have hscan := push_eq_scan validateXml (new maxEventBytes) chunks.flatten
  have heq := (scan_lawful validateXml maxEventBytes).feed_eq
    (scan_nil validateXml maxEventBytes) chunks
  -- pushes and scanner agree on the events and the bytes kept, or on the error
  have hall := hfeed.trans (heq.trans hscan.symm)
  cases hp : (pushAll validateXml (new maxEventBytes) chunks).2 with
  | error e =>
    cases hq : (push validateXml (new maxEventBytes) chunks.flatten).2 with
    | error e' =>
      rw [hp, hq] at hall
      exact ⟨by simpa [Except.map] using hall, fun _ h => by cases h⟩
    | ok events' => rw [hp, hq] at hall; cases hall
  | ok events =>
    cases hq : (push validateXml (new maxEventBytes) chunks.flatten).2 with
    | error e' => rw [hp, hq] at hall; cases hall
    | ok events' =>
      rw [hp, hq] at hall
      simp only [Except.map, Except.ok.injEq, Prod.mk.injEq] at hall
      exact ⟨by rw [hall.1], fun _ _ => hall.2⟩

end CotStreamDecoder

end TakBench
