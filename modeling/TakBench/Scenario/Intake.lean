import TakBench.Protocol.RoundTrip
import TakBench.Scenario.Session

/-!
# What a session takes from its stream

The reads of a session cut the stream of the server anywhere, and the reader may pause before its
first read and delay after each. What it counts and records is a function of the bytes alone: it is
always what one push of all bytes so far decodes, up to what is still to be looked at. So where
the server sends position events, the ids recorded are theirs, in order.

## Main definitions

* `taken`: the bytes that the reads of a session return
* `Decodes`: a stream that is decoded without an error
* `ReadsOff`, `Noted`: the events read off a stream, and what is counted and recorded of them
* `Reader.InStep`, `Session.InStep`: a reader in step with its stream

## Main results

* `Reader.inStep_step`, `Session.inStep_step`: a step keeps in step with the stream
* `Session.intake_exact`: what is counted and recorded is what the stream holds
* `Session.intake_written`: from a stream of position events, their ids are recorded
-/

namespace TakBench

open Search Scanner Utf8 CotStreamDecoder

/-- Events counted as received. -/
def Effect.received : Effect → ℕ
  | .add .receivedMessages n => n
  | _ => 0

/-- The id that is recorded. -/
def Effect.recorded? : Effect → Option Uuid
  | .observe _ id => some id
  | _ => none

/-- Nothing is received or recorded. -/
def Effect.Mute : Effect → Prop
  | .add counter _ | .sub counter _ => counter ≠ .receivedMessages ∧ counter ≠ .duplicateMessages
  | .observe _ _ => False
  | _ => True

/-- The bytes that a read returns. -/
def ReaderAct.bytes : ReaderAct → List UInt8
  | .received bytes => bytes
  | _ => []

/-- The bytes that a step of a session takes from the connection. -/
def SessionAct.bytes : SessionAct → List UInt8
  | .reader act => act.bytes
  | _ => []

/-- The bytes that the reads of a session return. -/
def taken (inputs : List (World × SessionAct)) : List UInt8 := inputs.flatMap fun i => i.2.bytes

variable (P : Platform)

/-- The events of frames. -/
def IsRead (raws : List String) (events : List ReceivedEvent) : Prop :=
  raws.map (inspectEvent P) = events.map .ok

/-- A stream is decoded by one push without an error, and its frames are `events`. -/
def Decodes (stream : List UInt8) (events : List ReceivedEvent) : Prop :=
  ∃ raws, (push (validateXml P) (CotStreamDecoder.new (8 * 1024 * 1024)) stream).2 = .ok raws ∧
    IsRead P raws events

/-- Events read off a stream, with the frames that wait and the bytes that are kept. -/
def ReadsOff (stream : List UInt8) (events : List ReceivedEvent) (waiting : List String)
    (kept : List UInt8) : Prop :=
  ∃ raws, scan (validateXml P) (8 * 1024 * 1024) stream = .ok (raws ++ waiting, kept) ∧
    IsRead P raws events

/-- What is counted and recorded of events, except for the ids that are held. -/
structure Noted (log : List Effect) (events : List ReceivedEvent) (held : List Uuid) : Prop where
  received : total Effect.received log = events.length
  recorded : log.filterMap Effect.recorded? ++ held = events.filterMap (·.correlationId)

/-- The intake is over: something is read off the front of the stream, and a parse error is one of
the stream. -/
structure Ended (stream : List UInt8) (log : List Effect) (result : Except Failure Unit) :
    Prop where
  front : ∃ front events waiting kept held, front <+: stream ∧
    ReadsOff P front events waiting kept ∧ Noted log events held ∧ held.length ≤ 1
  parse : result = .error [.runtime .parse] → ¬ ∃ events, Decodes P stream events

namespace Reader

/-- Bytes that are read and not decoded yet. -/
def pending (reader : Reader) : List UInt8 :=
  match reader.phase with
  | .delaying _ bytes => bytes
  | _ => []

/-- Frames that are decoded and not inspected yet. -/
def waiting (reader : Reader) : List String :=
  match reader.phase with
  | .recording raws | .locking _ raws => raws
  | _ => []

/-- A reader in step with its stream. -/
def InStep (reader : Reader) (stream : List UInt8) (log : List Effect) : Prop :=
  match reader.phase with
  | .spawned => stream = [] ∧ Noted log [] []
  | .returned result => Ended P stream log result
  | _ => reader.decoder.maxEventBytes = 8 * 1024 * 1024 ∧ ∃ front events,
      stream = front ++ reader.pending ∧
      ReadsOff P front events reader.waiting reader.decoder.buffer ∧
      Noted log events reader.holds?.toList

end Reader

variable {P} {participant : ParticipantConfig} {config : AppConfig} {w : World}
  {stream front bytes kept : List UInt8} {events : List ReceivedEvent} {raws waiting : List String}
  {log out : List Effect} {held : List Uuid} {result : Except Failure Unit}

/-! ## Streams -/

theorem decodes_iff : Decodes P stream events ↔ ∃ kept, ReadsOff P stream events [] kept := by
  constructor
  · rintro ⟨raws, hpush, hread⟩
    have hscan := push_eq_scan (validateXml P) (CotStreamDecoder.new (8 * 1024 * 1024)) stream
    rw [hpush] at hscan
    exact ⟨_, raws, (List.append_nil raws).symm ▸ hscan.symm, hread⟩
  · rintro ⟨kept, raws, hscan, hread⟩
    rw [List.append_nil] at hscan
    have hpush : CotStreamDecoder.push (validateXml P) (CotStreamDecoder.new (8 * 1024 * 1024))
        stream = (⟨kept, 8 * 1024 * 1024⟩, .ok raws) := push_of_scan hscan
    exact ⟨raws, congrArg Prod.snd hpush, hread⟩

theorem readsOff_nil : ReadsOff P [] [] [] [] := ⟨[], scan_nil _ _, rfl⟩

namespace ReadsOff

/-- A push goes on where the last one stopped. -/
theorem push {kept' : List UInt8} (h : ReadsOff P front events [] kept)
    (hscan : scan (validateXml P) (8 * 1024 * 1024) (kept ++ bytes) = .ok (raws, kept')) :
    ReadsOff P (front ++ bytes) events raws kept' := by
  obtain ⟨raws', hfront, hread⟩ := h
  rw [List.append_nil] at hfront
  refine ⟨raws', ?_, hread⟩
  rw [(scan_lawful _ _).ok_append bytes hfront, hscan, prepend_ok]

theorem not_decodes_push (h : ReadsOff P front events [] kept) {e : DecodeError P.XmlError}
    (hscan : scan (validateXml P) (8 * 1024 * 1024) (kept ++ bytes) = .error e) :
    ¬ ∃ events, Decodes P (front ++ bytes) events := by
  obtain ⟨raws', hfront, -⟩ := h
  rw [List.append_nil] at hfront
  rintro ⟨events', hdecodes⟩
  obtain ⟨kept', raws, hall, -⟩ := decodes_iff.mp hdecodes
  rw [(scan_lawful _ _).ok_append bytes hfront, hscan] at hall
  cases hall

/-- The next frame is inspected. -/
theorem inspect {raw : String} {event : ReceivedEvent}
    (h : ReadsOff P front events (raw :: waiting) kept) (hevent : inspectEvent P raw = .ok event) :
    ReadsOff P front (events ++ [event]) waiting kept := by
  obtain ⟨raws', hfront, hread⟩ := h
  refine ⟨raws' ++ [raw], ?_, ?_⟩
  · rwa [List.append_assoc]
  · rw [IsRead] at hread ⊢
    rw [List.map_append, List.map_append, hread, List.map_singleton, List.map_singleton, hevent]

theorem not_decodes_inspect {raw : String} {e : DecodeError P.XmlError}
    (h : ReadsOff P front events (raw :: waiting) kept) (hevent : inspectEvent P raw = .error e) :
    ¬ ∃ events, Decodes P front events := by
  obtain ⟨raws', hfront, -⟩ := h
  rintro ⟨events', hdecodes⟩
  obtain ⟨kept', raws, hall, hread⟩ := decodes_iff.mp hdecodes
  rw [hfront, List.append_nil] at hall
  obtain ⟨rfl, rfl⟩ := Prod.mk.inj (Except.ok.inj hall)
  -- the frame is one of those inspected
  have hmem : Except.error e ∈ events'.map Except.ok := by
    rw [← hread, ← hevent]
    exact List.mem_map_of_mem (by simp)
  obtain ⟨event, -, herror⟩ := List.mem_map.mp hmem
  cases herror

end ReadsOff

theorem noted_nil : Noted [] [] [] := ⟨rfl, rfl⟩

theorem mute_nil : ∀ e ∈ ([] : List Effect), e.Mute := by simp

theorem Effect.Mute.counts {e : Effect} (h : e.Mute) : e.received = 0 ∧ e.recorded? = none := by
  cases e with
  | add counter n =>
    cases counter with
    | receivedMessages => exact absurd rfl h.1
    | _ => exact ⟨rfl, rfl⟩
  | observe receiver id => exact h.elim
  | _ => exact ⟨rfl, rfl⟩

/-- What says nothing about events received. -/
theorem Noted.append (h : Noted log events held) (hout : ∀ e ∈ out, e.Mute) :
    Noted (log ++ out) events held where
  received := by
    rw [total_append, h.received, total_eq_zero fun e he => (hout e he).counts.1, Nat.add_zero]
  recorded := by
    rw [List.filterMap_append, List.filterMap_eq_nil_iff.mpr fun e he => (hout e he).counts.2,
      List.append_nil, h.recorded]

/-- An event is counted, and its id is held. -/
theorem Noted.count (h : Noted log events []) (event : ReceivedEvent) :
    Noted (log ++ [.add .receivedMessages 1]) (events ++ [event]) event.correlationId.toList where
  received := by simp [h.received, Effect.received]
  recorded := by
    have hrecorded := h.recorded
    rw [List.append_nil] at hrecorded
    cases hid : event.correlationId <;> simp [hrecorded, Effect.recorded?, hid]

/-- The id that is held is recorded. -/
theorem Noted.record {id : Uuid} (h : Noted log events [id]) :
    Noted (log ++ Reader.record participant w id) events [] := by
  have hrecord : total Effect.received (Reader.record participant w id) = 0 ∧
      (Reader.record participant w id).filterMap Effect.recorded? = [id] := by
    rw [Reader.record]
    split
    · simp [Effect.received, Effect.recorded?]
    · split <;> simp [Effect.received, Effect.recorded?]
  refine ⟨?_, ?_⟩
  · rw [total_append, hrecord.1, h.received, Nat.add_zero]
  · rw [List.filterMap_append, hrecord.2, List.append_nil, h.recorded]

/-! ## Readers -/

namespace Reader

variable {reader reader' : Reader} {act : ReaderAct}

/-- A reader that is in step may end without a parse error. -/
theorem InStep.ended (h : reader.InStep P stream log) (bytes : List UInt8)
    (hresult : result ≠ .error [.runtime .parse]) : Ended P (stream ++ bytes) log result := by
  refine ⟨?_, fun hparse => absurd hparse hresult⟩
  rw [InStep] at h
  split at h
  · obtain ⟨rfl, hnoted⟩ := h
    exact ⟨[], [], [], [], [], List.nil_prefix, readsOff_nil, hnoted, Nat.zero_le 1⟩
  · obtain ⟨front, events, waiting, kept, held, hfront, hrest⟩ := h.front
    exact ⟨front, events, waiting, kept, held, hfront.trans (List.prefix_append _ _), hrest⟩
  · obtain ⟨-, front, events, rfl, hread, hnoted⟩ := h
    refine ⟨front, events, _, _, _, ?_, hread, hnoted, ?_⟩
    · exact ⟨reader.pending ++ bytes, (List.append_assoc _ _ _).symm⟩
    · cases reader.holds? <;> simp

theorem InStep.finish (h : reader.InStep P stream log) (bytes : List UInt8)
    (hresult : result ≠ .error [.runtime .parse]) :
    (reader.finish result).InStep P (stream ++ bytes) log :=
  h.ended bytes hresult

/-- What a step counts that is not received. -/
theorem InStep.append (h : reader.InStep P stream log) (hout : ∀ e ∈ out, e.Mute) :
    reader.InStep P stream (log ++ out) := by
  rw [InStep] at h ⊢
  split at h
  · exact ⟨h.1, h.2.append hout⟩
  · obtain ⟨⟨front, events, waiting, kept, held, hfront, hread, hnoted, hheld⟩, hparse⟩ := h
    exact ⟨⟨front, events, waiting, kept, held, hfront, hread,
      hnoted.append hout, hheld⟩, hparse⟩
  · obtain ⟨hmax, front, events, hstream, hread, hnoted⟩ := h
    exact ⟨hmax, front, events, hstream, hread, hnoted.append hout⟩

theorem inStep_spawn : spawn.InStep P [] [] := ⟨rfl, noted_nil⟩

theorem inStep_start (h : Noted log [] []) : (start participant config w).InStep P [] log := by
  have hfresh : (CotStreamDecoder.new (8 * 1024 * 1024)).maxEventBytes = 8 * 1024 * 1024 ∧
      ∃ front events, [] = front ++ [] ∧
        ReadsOff P front events [] (CotStreamDecoder.new (8 * 1024 * 1024)).buffer ∧
        Noted log events [] :=
    ⟨rfl, [], [], rfl, readsOff_nil, h⟩
  rw [start]
  split
  · exact hfresh
  · split
    · exact ⟨⟨[], [], [], [], [], List.nil_prefix, readsOff_nil, h, Nat.zero_le 1⟩, by simp⟩
    · exact hfresh

/-- **A push keeps in step**: what it decodes waits, or the stream has an error. -/
theorem inStep_push (hmax : reader.decoder.maxEventBytes = 8 * 1024 * 1024)
    (hread : ReadsOff P front events [] reader.decoder.buffer) (hnoted : Noted log events [])
    (bytes : List UInt8) : (reader.push P bytes).InStep P (front ++ bytes) log := by
  rw [push]
  cases hscan : scan (validateXml P) (8 * 1024 * 1024) (reader.decoder.buffer ++ bytes) with
  | ok p =>
    obtain ⟨raws, kept⟩ := p
    rw [← hmax] at hscan
    rw [push_of_scan hscan]
    rw [hmax] at hscan
    exact ⟨hmax, front ++ bytes, events, (List.append_nil _).symm, hread.push hscan, hnoted⟩
  | error e =>
    have hnot := hread.not_decodes_push hscan
    rw [← hmax] at hscan
    have herror := push_of_scan_error hscan
    generalize CotStreamDecoder.push (validateXml P) reader.decoder bytes = p at herror
    obtain ⟨decoder, result⟩ := p
    simp only at herror
    subst herror
    exact ⟨⟨front, events, [], _, [], List.prefix_append _ _, hread, hnoted, Nat.zero_le 1⟩,
      fun _ => hnot⟩

section Step

variable {decoder : CotStreamDecoder} {since : Instant}

/-- A read: its bytes are pushed, wait, or are dropped. -/
theorem inStep_received (hreader : InStep P ⟨decoder, .reading since⟩ stream log)
    (h : step P participant config w ⟨decoder, .reading since⟩ (.received bytes) =
      some (reader', out)) : reader'.InStep P (stream ++ bytes) (log ++ out) := by
  have hdropped : (finish ⟨decoder, .reading since⟩ (.ok ())).InStep P (stream ++ bytes)
      (log ++ []) := (hreader.finish bytes (by simp)).append mute_nil
  obtain ⟨hmax, front, events, rfl, hread, hnoted⟩ := hreader
  simp only [step, Option.ite_none_right_eq_some] at h
  obtain ⟨-, h⟩ := h
  rw [pending, List.append_nil] at hdropped ⊢
  split at h
  · obtain ⟨rfl, rfl⟩ := Prod.mk.inj (Option.some.inj h)
    exact (inStep_push hmax hread hnoted bytes).append mute_nil
  · split at h
    · obtain ⟨rfl, rfl⟩ := Prod.mk.inj (Option.some.inj h)
      exact hdropped
    · obtain ⟨rfl, rfl⟩ := Prod.mk.inj (Option.some.inj h)
      exact ⟨hmax, front, events, rfl, hread, hnoted.append mute_nil⟩

/-- The next frame is counted, or the stream has an error. -/
theorem inStep_inspected {raws : List String}
    (hreader : InStep P ⟨decoder, .recording raws⟩ stream log)
    (h : step P participant config w ⟨decoder, .recording raws⟩ .inspected =
      some (reader', out)) : reader'.InStep P stream (log ++ out) := by
  obtain ⟨hmax, front, events, rfl, hread, hnoted⟩ := hreader
  rw [pending, List.append_nil]
  cases raws with
  | nil =>
    obtain ⟨rfl, rfl⟩ := Prod.mk.inj (Option.some.inj h)
    exact ⟨hmax, front, events, (List.append_nil _).symm, hread, hnoted.append mute_nil⟩
  | cons raw raws =>
    simp only [step] at h
    cases hevent : inspectEvent P raw with
    | error e =>
      rw [hevent] at h
      obtain ⟨rfl, rfl⟩ := Prod.mk.inj (Option.some.inj h)
      exact ⟨⟨front, events, _, _, [], List.prefix_rfl, hread, hnoted.append mute_nil,
        Nat.zero_le 1⟩, fun _ => hread.not_decodes_inspect hevent⟩
    | ok event =>
      have hcounted := Noted.count hnoted event
      have hnext := ReadsOff.inspect hread hevent
      rw [hevent] at h
      cases hid : event.correlationId with
      | none =>
        simp only [hid, Option.some.injEq, Prod.mk.injEq] at h
        obtain ⟨rfl, rfl⟩ := h
        rw [hid] at hcounted
        exact ⟨hmax, front, _, (List.append_nil _).symm, hnext, hcounted⟩
      | some id =>
        simp only [hid, Option.some.injEq, Prod.mk.injEq] at h
        obtain ⟨rfl, rfl⟩ := h
        rw [hid] at hcounted
        exact ⟨hmax, front, _, (List.append_nil _).symm, hnext, hcounted⟩

end Step

/-- **A step of a reader keeps in step with the stream.** -/
theorem inStep_step (hreader : reader.InStep P stream log)
    (h : reader.step P participant config w act = some (reader', out)) :
    reader'.InStep P (stream ++ act.bytes) (log ++ out) := by
  obtain ⟨decoder, phase⟩ := reader
  -- a reader that stops here, with nothing more taken
  have hover : ∀ result, result ≠ .error [.runtime .parse] →
      (finish ⟨decoder, phase⟩ result).InStep P (stream ++ []) (log ++ []) :=
    fun result hresult => (hreader.finish [] hresult).append mute_nil
  have hcut : ∀ p, cut ⟨decoder, phase⟩ = some p → p.1.InStep P (stream ++ []) (log ++ p.2) := by
    intro p hp
    rw [cut] at hp
    split at hp <;> cases hp <;> exact hover _ (by simp)
  cases act with
  | started =>
    cases phase with
    | spawned =>
      obtain ⟨rfl, hnoted⟩ := hreader
      obtain ⟨rfl, rfl⟩ := Prod.mk.inj (Option.some.inj h)
      exact (inStep_start hnoted).append mute_nil
    | _ => simp [step] at h
  | stopped =>
    simp only [step, Option.ite_none_right_eq_some] at h
    exact hcut _ h.2
  | deadline =>
    simp only [step, Option.ite_none_right_eq_some] at h
    exact hcut _ h.2
  | received bytes =>
    cases phase with
    | reading since => exact inStep_received hreader h
    | _ => simp [step] at h
  | peerClosed =>
    cases phase with
    | reading since =>
      obtain ⟨rfl, rfl⟩ := Prod.mk.inj (Option.some.inj h)
      exact hover _ (by simp)
    | _ => simp [step] at h
  | readFailed =>
    cases phase with
    | reading since =>
      obtain ⟨rfl, rfl⟩ := Prod.mk.inj (Option.some.inj h)
      exact hover _ (by simp)
    | _ => simp [step] at h
  | timedOut =>
    cases phase with
    | reading since =>
      simp only [step, Option.ite_none_right_eq_some] at h
      obtain ⟨-, h⟩ := h
      have hcount : ∀ e ∈ [Effect.add .messageTimeouts 1], e.Mute := by
        simp [Effect.Mute]
      split at h
      · -- silence is tolerated
        obtain ⟨rfl, rfl⟩ := Prod.mk.inj (Option.some.inj h)
        obtain ⟨hmax, front, events, rfl, hread, hnoted⟩ := hreader
        exact ⟨hmax, front, events, List.append_nil _, hread, hnoted.append hcount⟩
      · obtain ⟨rfl, rfl⟩ := Prod.mk.inj (Option.some.inj h)
        exact (hreader.finish [] (by simp)).append hcount
    | _ => simp [step] at h
  | delayOver =>
    cases phase with
    | pausing endsAt =>
      simp only [step, Option.ite_none_right_eq_some, Option.some.injEq, Prod.mk.injEq] at h
      obtain ⟨-, rfl, rfl⟩ := h
      obtain ⟨hmax, front, events, rfl, hread, hnoted⟩ := hreader
      exact ⟨hmax, front, events, List.append_nil _, hread, hnoted.append mute_nil⟩
    | delaying endsAt bytes =>
      simp only [step, Option.ite_none_right_eq_some, Option.some.injEq, Prod.mk.injEq] at h
      obtain ⟨-, rfl, rfl⟩ := h
      obtain ⟨hmax, front, events, rfl, hread, hnoted⟩ := hreader
      rw [show front ++ pending ⟨decoder, .delaying endsAt bytes⟩ ++ ReaderAct.delayOver.bytes =
        front ++ bytes from List.append_nil _]
      exact (inStep_push hmax hread hnoted bytes).append mute_nil
    | _ => simp [step] at h
  | inspected =>
    rw [show stream ++ ReaderAct.inspected.bytes = stream from List.append_nil stream]
    cases phase with
    | recording raws => exact inStep_inspected hreader h
    | _ => simp [step] at h
  | recorded =>
    cases phase with
    | locking id raws =>
      obtain ⟨rfl, rfl⟩ := Prod.mk.inj (Option.some.inj h)
      obtain ⟨hmax, front, events, rfl, hread, hnoted⟩ := hreader
      exact ⟨hmax, front, events, List.append_nil _, hread, hnoted.record⟩
    | _ => simp [step] at h

end Reader

/-! ## Senders -/

namespace Sender

/-- A continuation of a sender that receives nothing, and does not fail to parse. -/
structure Mute (p : Sender × List Effect) : Prop where
  phase : p.1.phase ≠ .returned (.error [.runtime .parse])
  effects : ∀ e ∈ p.2, e.Mute

variable {s s' : Sender} {act : SenderAct}

theorem mute_recordLocalDrop (n : ℕ) : ∀ e ∈ recordLocalDrop n, e.Mute := by
  simp [recordLocalDrop, Effect.Mute]

theorem mute_fail (n : ℕ) (failure : Failure) : Mute (s.fail, recordWriteFailure n failure) where
  phase := by simp [fail]
  effects := by
    rw [recordWriteFailure]
    split <;> simp [Effect.Mute]

theorem mute_leave : Mute s.leave where
  phase := by simp [leave]
  effects := by
    rw [leave, dropBatch]
    split
    · exact mute_recordLocalDrop _
    · exact mute_nil

theorem mute_endTick : Mute (s.endTick config) := by
  rw [endTick]
  split
  · exact mute_leave
  · exact ⟨by simp, mute_nil⟩

theorem mute_flushOutcome (next : AfterFlush) (outcome : WriteOutcome) :
    Mute (s.flushOutcome next outcome) := by
  cases outcome with
  | pending write => exact ⟨by simp [flushOutcome], mute_nil⟩
  | done =>
    exact ⟨by simp [flushOutcome],
      by simp [flushOutcome, Effect.Mute]⟩
  | failed failure => exact mute_fail _ failure

theorem mute_frameOutcome (outcome : WriteOutcome) : Mute (s.frameOutcome config outcome) := by
  cases outcome with
  | pending write => exact ⟨by simp [frameOutcome], mute_nil⟩
  | done =>
    have hend : Mute (s.endTick config) := mute_endTick
    exact ⟨hend.phase, List.forall_mem_cons.mpr ⟨by simp [Effect.Mute], hend.effects⟩⟩
  | failed failure => exact mute_fail _ failure

theorem mute_afterFlush (now : Instant) (next : AfterFlush) :
    Mute (s.afterFlush config now next) := by
  cases next with
  | batch => exact mute_endTick
  | frame bytes => exact mute_frameOutcome _

theorem mute_flush (now : Instant) (next : AfterFlush) : Mute (s.flush config now next) := by
  rw [flush]
  split
  · exact mute_afterFlush now next
  · exact mute_flushOutcome next _

theorem mute_dispatch (now : Instant) (utc : OffsetDateTime) (id : Uuid) :
    Mute (s.dispatch P participant config now utc id) := by
  rw [dispatch]
  split
  · exact mute_flush _ _
  · rw [append]
    split
    · exact ⟨by simp [overflow], mute_recordLocalDrop _⟩
    · split
      · exact mute_flush _ _
      · exact mute_endTick

/-- **A sender receives nothing.** -/
theorem mute_step (h : s.step P participant config w act = some (s', out)) : Mute (s', out) := by
  cases steps_of_step h with
  | tick utc id hphase hdue hp =>
    have hdispatch : Mute (s.dispatch P participant config w.now utc id) := mute_dispatch _ _ _
    rw [hp]
    exact ⟨hdispatch.phase, List.forall_mem_cons.mpr ⟨trivial, hdispatch.effects⟩⟩
  | stopped _ _ hp | deadline _ _ hp =>
    rw [hp]
    exact mute_leave
  | flush act write next outcome bytes hphase hwrite hp =>
    have houtcome := mute_flushOutcome (s := s) next outcome
    rw [hp]
    refine ⟨houtcome.phase, ?_⟩
    simp only [List.cons_append, List.mem_cons, List.mem_append]
    rintro e (rfl | he | he)
    · trivial
    · obtain ⟨c, -, rfl⟩ := List.mem_map.mp he
      trivial
    · exact houtcome.effects e he
  | frame act write outcome bytes hphase hwrite hp =>
    have houtcome : Mute (s.frameOutcome config outcome) := mute_frameOutcome outcome
    rw [hp]
    exact ⟨houtcome.phase, List.forall_mem_cons.mpr ⟨trivial, houtcome.effects⟩⟩
  | publish next hphase hp =>
    have hafter : Mute ({ s with batch := {} }.afterFlush config w.now next) :=
      mute_afterFlush _ _
    rw [hp]
    refine ⟨hafter.phase, ?_⟩
    simp only [List.mem_append]
    rintro e (he | he)
    · obtain ⟨c, -, rfl⟩ := List.mem_map.mp he
      trivial
    · exact hafter.effects e he

end Sender

/-! ## Sessions -/

namespace Session

variable {session session' : Session} {act : SessionAct}

variable (P) in
/-- A session in step with its stream; without a reader, nothing is taken from it. -/
def InStep (session : Session) (stream : List UInt8) (log : List Effect) : Prop :=
  match session with
  | .slowConnecting _ => Reader.spawn.InStep P stream log
  | .receiving reader => reader.InStep P stream log
  | .waiting _ reader | .sending _ reader | .panicked reader =>
    (reader.getD Reader.spawn).InStep P stream log
  | .joining reader result => reader.InStep P stream log ∧ result ≠ .error [.runtime .parse]
  | .returned result => Ended P stream log result

theorem inStep_afterReader {reader : Reader} (h : reader.InStep P stream log) :
    (afterReader reader).InStep P stream log := by
  rw [afterReader]
  split
  · next result hphase =>
    rw [Reader.InStep, hphase] at h
    exact h
  · exact h

theorem inStep_enter (h : Noted log [] []) : (enter participant config w).InStep P [] log := by
  rw [enter]
  split
  · exact inStep_afterReader (Reader.inStep_start h)
  · exact ⟨rfl, h⟩
  · exact ⟨rfl, h⟩

theorem inStep_start : (start participant config w).InStep P [] [] := by
  rw [start]
  split
  · split
    · exact Reader.inStep_spawn.ended [] (by simp)
    · exact Reader.inStep_spawn (P := P)
  · exact inStep_enter noted_nil

theorem inStep_close {reader : Option Reader}
    (h : (reader.getD Reader.spawn).InStep P stream log)
    (hresult : result ≠ .error [.runtime .parse]) : (close result reader).InStep P stream log := by
  cases reader with
  | none => exact List.append_nil stream ▸ h.ended [] hresult
  | some reader => exact ⟨h, hresult⟩

/-- **A step of a session keeps in step with the stream.** -/
theorem inStep_step (hsession : session.InStep P stream log)
    (h : session.step P participant config w act = some (session', out)) :
    session'.InStep P (stream ++ act.bytes) (log ++ out) := by
  cases steps_of_step h with
  | enter endsAt hdue =>
    obtain ⟨rfl, hnoted⟩ := hsession
    exact inStep_enter (hnoted.append mute_nil)
  | delayCut endsAt hover =>
    have hspawn : Reader.spawn.InStep P stream log := hsession
    exact (hspawn.append mute_nil).ended [] (by simp)
  | barrier barrier barrier' reader a hbarrier =>
    have hreader : (reader.getD Reader.spawn).InStep P stream log := hsession
    rw [show stream ++ (SessionAct.barrier a).bytes = stream from List.append_nil stream,
      List.append_nil]
    cases barrier' with
    | returned result =>
      cases result with
      | ready =>
        -- the barrier is open, and the interval may panic
        rw [afterBarrier]
        rcases openSender_cases config w reader with ⟨interval, -, -, hopen⟩ | hopen
        · rw [hopen]
          exact hreader
        · rw [hopen]
          exact hreader
      | timedOut => exact inStep_close hreader (by simp)
      | stopped => exact inStep_close hreader (by simp)
    | checking => exact hreader
    | unarmed => exact hreader
    | armed seen => exact hreader
  | sender sender sender' reader a out hsender =>
    have hmute := Sender.mute_step hsender
    have hreader : (reader.getD Reader.spawn).InStep P stream (log ++ out) :=
      Reader.InStep.append hsession hmute.effects
    rw [show stream ++ (SessionAct.sender a).bytes = stream from List.append_nil stream,
      afterSender]
    split
    · next result hphase =>
      exact inStep_close hreader fun hparse => hmute.phase (hparse ▸ hphase)
    · exact hreader
  | reader session reader reader' a out halive hreader =>
    cases session with
    | receiving reader =>
      obtain rfl := Option.some.inj halive
      exact inStep_afterReader (Reader.inStep_step hsession hreader)
    | waiting barrier reader =>
      obtain rfl : reader = some _ := halive
      exact Reader.inStep_step hsession hreader
    | sending sender reader =>
      obtain rfl : reader = some _ := halive
      exact Reader.inStep_step hsession hreader
    | joining reader result =>
      obtain rfl := Option.some.inj halive
      exact ⟨Reader.inStep_step hsession.1 hreader, hsession.2⟩
    | panicked reader =>
      obtain rfl : reader = some _ := halive
      exact Reader.inStep_step hsession hreader
    | slowConnecting _ => cases halive
    | returned _ => cases halive
  | readerDone sender reader result hphase =>
    have hreader : reader.InStep P stream log := hsession
    rw [Reader.InStep, hphase] at hreader
    rw [show stream ++ SessionAct.readerDone.bytes = stream from List.append_nil stream,
      List.append_nil]
    exact hreader
  | readerJoined reader result =>
    exact (hsession.1.append mute_nil).ended [] hsession.2

/-- What a session has taken and done keeps in step. -/
theorem inStep_of_exec {inputs : List (World × SessionAct)} {s : Session × List Effect}
    (h : (component P participant config).logged.exec (start participant config w, []) inputs =
      some s) : s.1.InStep P (taken inputs) s.2 := by
  have hstart : (start participant config w).InStep P (taken []) [] := inStep_start
  have hstep : ∀ (s : Session × List Effect) before i t, s.1.InStep P (taken before) s.2 →
      (component P participant config).logged.step s i = some t →
      t.1.InStep P (taken (before ++ [i])) t.2 := by
    intro s before i t hs hstep
    obtain ⟨out, hsession, hlog⟩ := Component.logged_step.mp hstep
    rw [hlog, taken, List.flatMap_append, List.flatMap_singleton]
    exact inStep_step hs hsession
  exact Machine.exec_invariant_inputs (I := fun s before => s.1.InStep P (taken before) s.2)
    hstep hstart h

theorem InStep.readsOff (h : session.InStep P stream log) :
    ∃ front events waiting kept held, front <+: stream ∧ ReadsOff P front events waiting kept ∧
      Noted log events held ∧ held.length ≤ 1 := by
  have hreader : ∀ reader : Reader, reader.InStep P stream log →
      (Ended P stream log (.ok ())) := fun reader hreader =>
    List.append_nil stream ▸ hreader.ended [] (by simp)
  cases session with
  | slowConnecting _ => exact (hreader Reader.spawn h).front
  | receiving reader => exact (hreader reader h).front
  | waiting _ reader | sending _ reader | panicked reader =>
    exact (hreader (reader.getD Reader.spawn) h).front
  | joining reader _ => exact (hreader reader h.1).front
  | returned _ => exact Ended.front h

theorem InStep.reader {reader : Reader} (h : session.InStep P stream log)
    (hreader : session.reader? = some reader) : reader.InStep P stream log := by
  cases session with
  | slowConnecting _ => cases hreader
  | receiving _ => exact Option.some.inj hreader ▸ h
  | waiting _ reader' | sending _ reader' | panicked reader' =>
    obtain rfl : reader' = some reader := hreader
    exact h
  | joining _ _ => exact Option.some.inj hreader ▸ h.1
  | returned _ => cases hreader

/-- A reader that waits for its next read has nothing left of its stream. -/
theorem InStep.rest {reader : Reader} {since : Instant} (h : session.InStep P stream log)
    (hreader : session.reader? = some reader) (hphase : reader.phase = .reading since) :
    ∃ events, Decodes P stream events ∧ Noted log events [] := by
  have hstep := h.reader hreader
  obtain ⟨decoder, phase⟩ := reader
  simp only at hphase
  subst hphase
  obtain ⟨-, front, events, rfl, hread, hnoted⟩ := hstep
  rw [Reader.pending, List.append_nil]
  exact ⟨events, decodes_iff.mpr ⟨_, hread⟩, hnoted⟩

section Intake

variable {inputs : List (World × SessionAct)}

/-- **What a session counts and records is what its stream holds**, however the reads cut it and
whatever the reader waits for. At any time it is read off the front of the stream, with at most
one id that is counted and not recorded; when the reader waits for its next read, nothing of the
stream is missing; and a session fails to parse only if its stream has an error. -/
theorem intake_exact
    (h : (component P participant config).logged.exec (start participant config w, []) inputs =
      some (session, log)) :
    (∃ front events waiting kept held, front <+: taken inputs ∧
      ReadsOff P front events waiting kept ∧ Noted log events held ∧ held.length ≤ 1) ∧
    (∀ reader since, session.reader? = some reader → reader.phase = .reading since →
      ∃ events, Decodes P (taken inputs) events ∧ Noted log events []) ∧
    (session = .returned (.error [.runtime .parse]) →
      ¬ ∃ events, Decodes P (taken inputs) events) := by
  have hstep : session.InStep P (taken inputs) log := inStep_of_exec h
  refine ⟨hstep.readsOff, fun reader since hreader hphase => hstep.rest hreader hphase, ?_⟩
  rintro rfl
  exact Ended.parse hstep rfl

end Intake

end Session

/-! ## Streams of position events -/

/-- What is known of a position event that is received. -/
def PositionEvent.seen (P : Platform) (e : PositionEvent) : ReceivedEvent :=
  ⟨e.toXml P, some (escape e.uid), some "a-f-G-U-C", some e.correlationId⟩

section Written

variable {positions : List PositionEvent} {preambles : List (List UInt8)}

theorem isRead_toXml (hS : P.Standard) (hP : P.Plain) :
    IsRead P (positions.map (·.toXml P)) events ↔ events = positions.map (·.seen P) := by
  have hseen : (positions.map (·.toXml P)).map (inspectEvent P) =
      (positions.map (·.seen P)).map .ok := by
    rw [List.map_map, List.map_map]
    exact List.map_congr_left fun e _ => inspectEvent_toXml hS hP e
  rw [IsRead, hseen]
  constructor
  · intro h
    exact List.map_injective_iff.mpr (fun _ _ => Except.ok.inj) h.symm
  · rintro rfl
    rfl

/-- The front of a stream of position events holds the first of them. -/
theorem scan_front (hS : P.Standard) (hP : P.Plain)
    (hmax : ∀ e ∈ positions, (asBytes (e.toXml P)).length ≤ 8 * 1024 * 1024)
    (hpre : ∀ preamble ∈ preambles, position eventOpen preamble = none)
    (hfront : front <+: insertPreambles preambles
      (positions.map fun e => (asBytes (e.toXml P)).length) (batchBytes P positions)) :
    ∃ n kept, scan (validateXml P) (8 * 1024 * 1024) front =
      .ok ((positions.take n).map (·.toXml P), kept) := by
  obtain ⟨kept, hscan⟩ := scan_insertPreambles hS hP hmax hpre
  obtain ⟨rest, hrest⟩ := hfront
  rw [← hrest] at hscan
  obtain ⟨found, kept', hfound, htake⟩ := (scan_lawful _ _).exists_take hscan
  rw [List.prefix_iff_eq_take, ← List.map_take] at htake
  exact ⟨found.length, kept', htake ▸ hfound⟩

/-- What is read off the front of a stream of position events is the first of them. -/
theorem ReadsOff.eq_take (hS : P.Standard) (hP : P.Plain)
    (hmax : ∀ e ∈ positions, (asBytes (e.toXml P)).length ≤ 8 * 1024 * 1024)
    (hpre : ∀ preamble ∈ preambles, position eventOpen preamble = none)
    (hfront : front <+: insertPreambles preambles
      (positions.map fun e => (asBytes (e.toXml P)).length) (batchBytes P positions))
    (h : ReadsOff P front events waiting kept) :
    ∃ n, events = (positions.take n).map (·.seen P) := by
  obtain ⟨raws, hraws, hread⟩ := h
  obtain ⟨n, kept', hscan⟩ := scan_front hS hP hmax hpre hfront
  rw [hscan] at hraws
  obtain ⟨hsplit, -⟩ := Prod.mk.inj (Except.ok.inj hraws)
  have htake : raws <+: (positions.take n).map (·.toXml P) := ⟨waiting, hsplit.symm⟩
  rw [List.prefix_iff_eq_take, ← List.map_take, List.take_take] at htake
  rw [htake] at hread
  exact ⟨_, (isRead_toXml hS hP).mp hread⟩

variable {session : Session} {inputs : List (World × SessionAct)}

theorem ids_seen (positions : List PositionEvent) :
    (positions.map (·.seen P)).filterMap (·.correlationId) = positions.map (·.correlationId) := by
  simp [List.filterMap_map, PositionEvent.seen]

/-- From the front of a stream of position events, a session records the ids of the first of them,
and it does not fail to parse. -/
theorem Session.recorded_front (hS : P.Standard) (hP : P.Plain)
    (hmax : ∀ e ∈ positions, (asBytes (e.toXml P)).length ≤ 8 * 1024 * 1024)
    (hpre : ∀ preamble ∈ preambles, position eventOpen preamble = none)
    (h : (component P participant config).logged.exec (start participant config w, []) inputs =
      some (session, log))
    (hstream : taken inputs <+: insertPreambles preambles
      (positions.map fun e => (asBytes (e.toXml P)).length) (batchBytes P positions)) :
    (∃ n, total Effect.received log = (positions.take n).length ∧
      log.filterMap Effect.recorded? <+: (positions.take n).map (·.correlationId)) ∧
    session ≠ .returned (.error [.runtime .parse]) := by
  have hstep := inStep_of_exec h
  constructor
  · obtain ⟨front, events, waiting, kept, held, hfront, hread, hnoted, -⟩ := hstep.readsOff
    obtain ⟨n, rfl⟩ := hread.eq_take hS hP hmax hpre (hfront.trans hstream)
    refine ⟨n, hnoted.received.trans (List.length_map _), held, ?_⟩
    rw [hnoted.recorded, ids_seen]
  · -- the front of the stream decodes
    rintro rfl
    obtain ⟨n, kept, hscan⟩ := scan_front hS hP hmax hpre hstream
    have hread : ReadsOff P (taken inputs) ((positions.take n).map (·.seen P)) [] kept :=
      ⟨_, (List.append_nil _).symm ▸ hscan, (isRead_toXml hS hP).mpr rfl⟩
    exact Ended.parse hstep rfl ⟨_, decodes_iff.mpr ⟨kept, hread⟩⟩

/-- A session whose reader waits for its next read has recorded all that a scan finds. -/
theorem Session.recorded_rest {reader : Reader} {since : Instant} {kept : List UInt8}
    (hS : P.Standard) (hP : P.Plain)
    (h : (component P participant config).logged.exec (start participant config w, []) inputs =
      some (session, log))
    (hreader : session.reader? = some reader) (hphase : reader.phase = .reading since)
    (hscan : scan (validateXml P) (8 * 1024 * 1024) (taken inputs) =
      .ok (positions.map (·.toXml P), kept)) :
    total Effect.received log = positions.length ∧
      log.filterMap Effect.recorded? = positions.map (·.correlationId) := by
  obtain ⟨events, hdecodes, hnoted⟩ := (inStep_of_exec h).rest hreader hphase
  obtain ⟨kept', raws, hraws, hread⟩ := decodes_iff.mp hdecodes
  rw [hscan, List.append_nil] at hraws
  obtain ⟨rfl, -⟩ := Prod.mk.inj (Except.ok.inj hraws)
  obtain rfl := (isRead_toXml hS hP).mp hread
  have hrecorded := hnoted.recorded
  rw [ids_seen, List.append_nil] at hrecorded
  exact ⟨hnoted.received.trans (List.length_map _), hrecorded⟩

end Written

/-- **From a stream of position events, their ids are recorded**, in order, and nothing else. The
stream is what a sender writes, in any batches and fragments, with anything before an event that
does not start one, and the reads return any part of it so far: the session does not fail to parse,
and when its reader waits at the end of the stream, every event is counted and recorded. -/
theorem Session.intake_written {session : Session} {inputs : List (World × SessionAct)}
    (hS : P.Standard) (hP : P.Plain) (chunks : List ℕ) (batches : List (List PositionEvent))
    (preambles : List (List UInt8))
    (hmax : ∀ e ∈ batches.flatten, (asBytes (e.toXml P)).length ≤ 8 * 1024 * 1024)
    (hpre : ∀ preamble ∈ preambles, position eventOpen preamble = none)
    (h : (component P participant config).logged.exec (start participant config w, []) inputs =
      some (session, log))
    (hstream : taken inputs <+: insertPreambles preambles
      (batches.flatten.map fun e => (asBytes (e.toXml P)).length) (written P chunks batches)) :
    log.filterMap Effect.recorded? <+: batches.flatten.map (·.correlationId) ∧
      session ≠ .returned (.error [.runtime .parse]) ∧
      ∀ reader since, session.reader? = some reader → reader.phase = .reading since →
        taken inputs = insertPreambles preambles
          (batches.flatten.map fun e => (asBytes (e.toXml P)).length) (written P chunks batches) →
        total Effect.received log = batches.flatten.length ∧
          log.filterMap Effect.recorded? = batches.flatten.map (·.correlationId) := by
  rw [written_eq] at hstream
  obtain ⟨⟨n, -, hrecorded⟩, hparse⟩ := recorded_front hS hP hmax hpre h hstream
  refine ⟨hrecorded.trans ((List.take_prefix n _).map _), hparse, ?_⟩
  intro reader since hreader hphase hall
  -- the whole stream holds all events
  obtain ⟨kept, hscan⟩ := scan_insertPreambles hS hP hmax hpre
  rw [written_eq] at hall
  exact recorded_rest hS hP h hreader hphase (hall ▸ hscan)

/-! ## An event behind a preamble, in two reads -/

namespace Session.Split

def receiver : ParticipantConfig := { id := "receiver", role := .receiveOnly }

/-- A session that receives. -/
def receiving (decoder : CotStreamDecoder) (phase : ReaderPhase) : Session :=
  .receiving ⟨decoder, phase⟩

def preamble : List UInt8 := asBytes "<auth>"

/-- The decoder after the preamble. -/
def behind : CotStreamDecoder := ⟨asBytes "auth>", 8 * 1024 * 1024⟩

/-- The preamble is read, then the event. -/
def inputs (bytes : List UInt8) : List (World × SessionAct) :=
  [.received preamble, .inspected, .received bytes, .inspected, .recorded, .inspected].map
    fun act => (World.initial false, .reader act)

theorem taken_inputs (bytes : List UInt8) : taken (inputs bytes) = preamble ++ bytes := by
  simp [taken, inputs, SessionAct.bytes, ReaderAct.bytes]

/-- A step of the reader. -/
theorem step_reader {decoder decoder' : CotStreamDecoder} {phase phase' : ReaderPhase}
    {act : ReaderAct}
    (h : Reader.step P receiver {} (World.initial false) ⟨decoder, phase⟩ act =
      some (⟨decoder', phase'⟩, out))
    (halive : afterReader ⟨decoder', phase'⟩ = receiving decoder' phase') :
    (component P receiver {}).logged.step (receiving decoder phase, log)
      (World.initial false, .reader act) = some (receiving decoder' phase', log ++ out) :=
  Component.logged_step.mpr ⟨out, step_receiving h halive, rfl⟩

/-- A read of bytes that decode. -/
theorem step_received (decoder : CotStreamDecoder) (hpos : 0 < bytes.length)
    (hlimit : bytes.length ≤ 8192)
    (hscan : scan (validateXml P) decoder.maxEventBytes (decoder.buffer ++ bytes) =
      .ok (raws, kept)) :
    Reader.step P receiver {} (World.initial false) ⟨decoder, .reading 0⟩ (.received bytes) =
      some (⟨⟨kept, decoder.maxEventBytes⟩, .recording raws⟩, []) := by
  refine (if_pos ⟨hpos, hlimit⟩).trans ?_
  simp only [receiver, Reader.push, push_of_scan hscan]

/-- The event is counted and recorded. -/
theorem exec_inputs (hS : P.Standard) (hP : P.Plain) {e : PositionEvent}
    (hlimit : (asBytes (e.toXml P)).length ≤ 8192) :
    (component P receiver {}).logged.exec (start receiver {} (World.initial false), [])
        (inputs (asBytes (e.toXml P))) =
      some (receiving (CotStreamDecoder.new (8 * 1024 * 1024)) (.reading 0),
        [.add .receivedMessages 1, .observe "receiver" e.correlationId]) := by
  have hpreamble : scan (validateXml P) (8 * 1024 * 1024) ([] ++ preamble) =
      .ok ([], asBytes "auth>") := scan_of_no_open (by decide)
  have hevent : scan (validateXml P) (8 * 1024 * 1024) (asBytes "auth>" ++ asBytes (e.toXml P)) =
      .ok ([e.toXml P], []) := by
    have hfree : position eventOpen (asBytes "auth>") = none := by decide
    have hnext := scan_event hS hP hfree (hlimit.trans (show 8192 ≤ 8 * 1024 * 1024 by decide)) []
    rwa [List.append_nil, scan_nil] at hnext
  have hfirst := step_received (CotStreamDecoder.new (8 * 1024 * 1024)) (by decide) (by decide)
    hpreamble
  have hsecond := step_received behind (List.length_pos_of_ne_nil (asBytes_toXml_ne_nil e))
    hlimit hevent
  have hinspected : Reader.step P receiver {} (World.initial false)
      ⟨CotStreamDecoder.new (8 * 1024 * 1024), .recording [e.toXml P]⟩ .inspected =
      some (⟨CotStreamDecoder.new (8 * 1024 * 1024), .locking e.correlationId []⟩,
        [.add .receivedMessages 1]) := by
    simp only [Reader.step, inspectEvent_toXml hS hP]
  refine Machine.exec_step (step_reader hfirst rfl) (Machine.exec_step (step_reader rfl rfl)
    (Machine.exec_step (step_reader hsecond rfl) (Machine.exec_step (step_reader hinspected rfl)
      (Machine.exec_step (step_reader rfl rfl) (Machine.exec_step (step_reader rfl rfl) ?_)))))
  rfl

theorem length_reference : (asBytes (Reference.event.toXml Reference.platform)).length ≤ 8192 :=
  (Reference.length_toXml_le _).trans (by decide)

end Session.Split

/-- What the session has recorded when it waits for its next read. -/
theorem Session.intake_exact_split :
    ∃ events, Decodes Reference.platform
      (taken (Split.inputs (asBytes (Reference.event.toXml Reference.platform)))) events ∧
      Noted [.add .receivedMessages 1, .observe "receiver" Reference.event.correlationId]
        events [] :=
  (intake_exact (Split.exec_inputs Reference.platform_standard Reference.platform_plain
    Split.length_reference)).2.1 _ _ rfl rfl

/-- The stream of one event behind a preamble. -/
theorem Session.intake_written_split :
    ∃ chunks batches preambles,
      taken (Split.inputs (asBytes (Reference.event.toXml Reference.platform))) =
        insertPreambles preambles (batches.flatten.map fun e =>
          (asBytes (PositionEvent.toXml Reference.platform e)).length)
          (written Reference.platform chunks batches) ∧
      total Effect.received
        [.add .receivedMessages 1, .observe "receiver" Reference.event.correlationId] =
          batches.flatten.length := by
  have hstream : taken (Split.inputs (asBytes (Reference.event.toXml Reference.platform))) =
      insertPreambles [Split.preamble] ([[Reference.event]].flatten.map fun e =>
        (asBytes (e.toXml Reference.platform)).length)
        (written Reference.platform [] [[Reference.event]]) := by
    simp [Split.taken_inputs, insertPreambles, written_eq, batchBytes]
  have hlimit : ∀ e ∈ [[Reference.event]].flatten,
      (asBytes (e.toXml Reference.platform)).length ≤ 8 * 1024 * 1024 := by
    intro e he
    obtain rfl : e = Reference.event := by simpa using he
    exact Split.length_reference.trans (by decide)
  have hpre : ∀ preamble ∈ [Split.preamble], position eventOpen preamble = none := by decide
  exact ⟨[], [[Reference.event]], [Split.preamble], hstream,
    ((intake_written Reference.platform_standard Reference.platform_plain [] [[Reference.event]]
      [Split.preamble] hlimit hpre (Split.exec_inputs Reference.platform_standard
        Reference.platform_plain Split.length_reference) (hstream ▸ List.prefix_rfl)).2.2 _ _ rfl
          rfl hstream).1⟩

end TakBench
