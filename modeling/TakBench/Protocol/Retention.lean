import TakBench.Library.Loop
import TakBench.Protocol.Decoder

/-!
# What the decoder keeps

Each pass of the loop in `push` that goes on cuts a frame off the buffer, so that the loop ends. It
ends well in two places: without `<event` in the buffer, where five bytes are kept, and with a frame
that is not complete and not over the limit. So that is all that a decoder keeps between two pushes,
however long the stream is and whatever it contains.

## Main definitions

* `CotStreamDecoder.pass`: one pass of the loop
* `Retained`: a buffer that is small, or an open frame within the limit

## Main results

* `CotStreamDecoder.loop_pass`: the loop ends with what `pushLoop` says
* `CotStreamDecoder.pushAll_retained`: the buffer after any pushes that succeed
-/

namespace TakBench

open Search CotStreamDecoder

variable {ξ : Type} (validateXml : List UInt8 → Except ξ Unit) (maxEventBytes : ℕ)

/-- At most five bytes, or a frame that is not complete and within the limit. -/
def Retained (buffer : List UInt8) : Prop :=
  buffer.length ≤ 5 ∨
  eventOpen <+: buffer ∧ ¬ eventClose <:+: buffer ∧ buffer.length ≤ maxEventBytes

/-- The bound on what is retained. -/
theorem Retained.length_le {maxEventBytes : ℕ} {buffer : List UInt8}
    (h : Retained maxEventBytes buffer) : buffer.length ≤ max 5 maxEventBytes := by
  rcases h with hsmall | ⟨-, -, hlimit⟩
  · exact hsmall.trans (le_max_left _ _)
  · exact hlimit.trans (le_max_right _ _)

namespace CotStreamDecoder

/-- One pass of the loop in `push`, on the buffer and the events: the loop goes on with the rest
behind a frame, or ends. -/
def pass (s : List UInt8 × List String) :
    (List UInt8 × List String) ⊕ (List UInt8 × Except (DecodeError ξ) (List String)) :=
  match position eventOpen s.1 with
  | none => .inr (s.1.drop (s.1.length - 5), .ok s.2)
  | some start =>
    let framed := s.1.drop start
    match position eventClose framed with
    | none =>
      if maxEventBytes < framed.length then .inr (framed, .error (.frameTooLarge maxEventBytes))
      else .inr (framed, .ok s.2)
    | some close =>
      let stop := close + 8
      if maxEventBytes < stop then .inr (framed.drop stop, .error (.frameTooLarge maxEventBytes))
      else
        match validateXml (framed.take stop) with
        | .error e => .inr (framed.drop stop, .error (.xml e))
        | .ok () => .inl (framed.drop stop, s.2 ++ [Utf8.fromUtf8Lossy (framed.take stop)])

variable {validateXml maxEventBytes} {s s' : List UInt8 × List String}
  {buffer : List UInt8} {events : List String}

/-- A pass is a step of the recursion. -/
theorem pushLoop_eq_pass : pushLoop validateXml maxEventBytes s.1 s.2 =
    (pass validateXml maxEventBytes s).elim
      (fun s' => pushLoop validateXml maxEventBytes s'.1 s'.2) id := by
  rw [pushLoop, pass]
  split
  · next hopen => simp only [hopen, Sum.elim_inr, id]
  · next start hopen =>
    simp only [hopen]
    cases hclose : position eventClose (s.1.drop start) with
    | none =>
      simp only
      split
      · rfl
      · rfl
    | some close =>
      simp only
      split
      · rfl
      · cases validateXml ((s.1.drop start).take (close + 8)) with
        | error e => rfl
        | ok _ => rfl

/-- A pass that goes on has cut a frame off. -/
theorem length_lt_of_pass (h : pass validateXml maxEventBytes s = .inl s') :
    s'.1.length < s.1.length := by
  rw [pass] at h
  split at h
  · cases h
  · next start hopen =>
    have hstart := position_eventOpen_le hopen
    simp only at h
    split at h
    · split at h <;> cases h
    · split at h
      · cases h
      · split at h
        · cases h
        · obtain rfl := Sum.inl.inj h
          simp only [List.length_drop]
          omega

/-- **The loop ends**, after at most as many passes as there are bytes in the buffer, and one more:
with what the recursion says. -/
theorem loop_pass (buffer : List UInt8) (events : List String) :
    ∃ n ≤ buffer.length + 1, Loop (pass validateXml maxEventBytes) n (buffer, events)
      (pushLoop validateXml maxEventBytes buffer events) := by
  have hends : ∃ n r, n ≤ buffer.length + 1 ∧
      Loop (pass validateXml maxEventBytes) n (buffer, events) r ∧
      r = pushLoop validateXml maxEventBytes buffer events := by
    -- the invariant: what the recursion says stays the same
    refine Loop.exists_of_measure (s := (buffer, events))
      (fun s => pushLoop validateXml maxEventBytes s.1 s.2 =
        pushLoop validateXml maxEventBytes buffer events)
      (fun s => s.1.length) _ ?_ ?_ rfl
    · intro s s' hs hpass
      refine ⟨?_, length_lt_of_pass hpass⟩
      rw [← hs, pushLoop_eq_pass (s := s), hpass]
      rfl
    · intro s r hs hpass
      rw [← hs, pushLoop_eq_pass, hpass]
      rfl
  obtain ⟨n, r, hn, hloop, rfl⟩ := hends
  exact ⟨n, hn, hloop⟩

/-- What is kept by the pass that ends the loop well. -/
theorem retained_of_pass {r : List UInt8 × Except (DecodeError ξ) (List String)}
    (h : pass validateXml maxEventBytes s = .inr r) (hr : r.2 = .ok events) :
    Retained maxEventBytes r.1 := by
  rw [pass] at h
  split at h
  · obtain rfl := Sum.inr.inj h
    left
    rw [List.length_drop]
    omega
  · next start hopen =>
    simp only at h
    split at h
    · next hclose =>
      split at h
      · obtain rfl := Sum.inr.inj h
        cases hr
      · next hlimit =>
        obtain rfl := Sum.inr.inj h
        -- the frame is not complete, and the limit was checked
        exact .inr ⟨prefix_of_position hopen, not_infix_of_position hclose,
          Nat.le_of_not_lt hlimit⟩
    · split at h
      · obtain rfl := Sum.inr.inj h
        cases hr
      · split at h
        · obtain rfl := Sum.inr.inj h
          cases hr
        · cases h

/-- **A push that succeeds** leaves little. -/
theorem retained_of_push {d d' : CotStreamDecoder} {bytes : List UInt8}
    (h : push validateXml d bytes = (d', .ok events)) :
    d'.maxEventBytes = d.maxEventBytes ∧ Retained d.maxEventBytes d'.buffer := by
  obtain ⟨rfl, hresult⟩ := Prod.mk.inj h
  obtain ⟨n, -, hloop⟩ := loop_pass (d.buffer ++ bytes) []
  obtain ⟨s, hpass⟩ := hloop.exists_last
  exact ⟨rfl, retained_of_pass hpass hresult⟩

theorem retained_of_pushAll {d d' : CotStreamDecoder} {chunks : List (List UInt8)}
    (hd : Retained d.maxEventBytes d.buffer)
    (h : pushAll validateXml d chunks = (d', .ok events)) :
    Retained d.maxEventBytes d'.buffer := by
  induction chunks generalizing d events with
  | nil =>
    obtain ⟨rfl, -⟩ := Prod.mk.inj h
    exact hd
  | cons chunk chunks ih =>
    obtain ⟨d₁, found, found', hpush, hlater, -⟩ := exists_of_pushAll_cons h
    obtain ⟨hlimit, hretained⟩ := retained_of_push hpush
    rw [← hlimit] at hretained ⊢
    exact ih hretained hlater

variable (validateXml maxEventBytes) in
/-- **Every push ends**, and after any pushes that succeed the decoder keeps at most five bytes, or
an open frame within the limit. -/
theorem pushAll_retained (chunks : List (List UInt8)) :
    (∀ (d : CotStreamDecoder) bytes, ∃ n ≤ (d.buffer ++ bytes).length + 1,
      Loop (pass validateXml d.maxEventBytes) n (d.buffer ++ bytes, [])
        ((push validateXml d bytes).1.buffer, (push validateXml d bytes).2)) ∧
    ∀ d events, pushAll validateXml (new maxEventBytes) chunks = (d, .ok events) →
      Retained maxEventBytes d.buffer ∧ d.buffer.length ≤ max 5 maxEventBytes := by
  constructor
  · intro d bytes
    exact loop_pass (d.buffer ++ bytes) []
  · intro d events h
    have hretained : Retained maxEventBytes d.buffer :=
      retained_of_pushAll (d := new maxEventBytes) (.inl (Nat.zero_le _)) h
    exact ⟨hretained, hretained.length_le⟩

end CotStreamDecoder

end TakBench
