import TakBench.Protocol.Inspect
import TakBench.Protocol.Reference
import TakBench.Scenario.Fragmentation

/-!
# The event stream, from the sender's batches to the receiver's events

A sender writes batches of events, each batch in fragments. On the way the bytes may be cut into
other segments, and preambles may be put before events. A preamble without `<event` is never seen
by the decoder, and the XML of an event is one frame, so the receiver gets the events back.

## Main definitions

* `written P chunks batches`: the bytes a sender writes
* `insertPreambles preambles lengths bytes`: the bytes with preambles before the events

## Main results

* `scan_event`: the decoder takes one event off its input
* `scan_insertPreambles`: the decoder takes the events of a stream and nothing else
* `inspectEvent_uid_iff`: the uids that come back
-/

namespace TakBench

open Search Scanner Utf8 CotStreamDecoder

variable (P : Platform)

/-- The bytes of a batch. -/
def batchBytes (batch : List PositionEvent) : List UInt8 :=
  batch.flatMap fun e => asBytes (e.toXml P)

/-- The bytes of the fragments of all batches, in the order they are written. -/
def written (chunks : List ℕ) (batches : List (List PositionEvent)) : List UInt8 :=
  (batches.flatMap fun batch => fragments chunks (batchBytes P batch)).flatten

/-- A preamble before each piece of `bytes` and one behind the last; the pieces have the given
lengths, and a preamble that is missing is empty. -/
def insertPreambles : List (List UInt8) → List ℕ → List UInt8 → List UInt8
  | preambles, [], bytes => preambles.headD [] ++ bytes
  | preambles, length :: lengths, bytes =>
    preambles.headD [] ++
      (bytes.take length ++ insertPreambles preambles.tail lengths (bytes.drop length))

variable {P}

theorem written_eq (chunks : List ℕ) (batches : List (List PositionEvent)) :
    written P chunks batches = batchBytes P batches.flatten := by
  induction batches with
  | nil => rfl
  | cons batch batches ih =>
    have hcons : written P chunks (batch :: batches) =
        (fragments chunks (batchBytes P batch)).flatten ++ written P chunks batches := by
      simp [written]
    rw [hcons, fragments_flatten, ih]
    simp [batchBytes]

section Frame

variable {e : PositionEvent} {maxEventBytes : ℕ}

/-- The name `event` in closing tags. -/
theorem validName_event : Markup.ValidName (asBytes "event") := by decide

theorem eventClose_eq_write : eventClose = (Markup.Event.close (asBytes "event")).write := by
  decide

theorem asBytes_toXml_eq_append (e : PositionEvent) :
    asBytes (e.toXml P) = Markup.write (e.innerTags P) ++ eventClose := by
  rw [e.asBytes_toXml, PositionEvent.tags, Markup.write_append, eventClose_eq_write]
  simp [Markup.write]

/-- An event starts with `<event`. -/
theorem eventOpen_prefix_toXml (e : PositionEvent) : eventOpen <+: asBytes (e.toXml P) := by
  rw [e.asBytes_toXml]
  exact ⟨_, rfl⟩

theorem asBytes_toXml_ne_nil (e : PositionEvent) : asBytes (e.toXml P) ≠ [] := by
  intro hnil
  have hprefix := eventOpen_prefix_toXml (P := P) e
  rw [hnil] at hprefix
  exact absurd (List.prefix_nil.mp hprefix) (by decide)

/-- An event ends with its first `</event>`. -/
theorem position_eventClose_toXml (hP : P.Plain) (e : PositionEvent) (rest : List UInt8) :
    position eventClose (asBytes (e.toXml P) ++ rest) =
      some (Markup.write (e.innerTags P)).length := by
  have hvalid : ∀ tag ∈ e.innerTags P, tag.Valid := fun tag htag =>
    e.tags_valid hP tag (List.mem_append_left _ htag)
  rw [asBytes_toXml_eq_append, List.append_assoc, eventClose_eq_write]
  exact Markup.position_close hvalid validName_event e.notMem_innerTags rest

/-- A preamble hides nothing: the first `<event` is that of the event behind it. -/
theorem position_eventOpen_preamble {preamble rest : List UInt8}
    (h : position eventOpen preamble = none) (hrest : eventOpen <+: rest) :
    position eventOpen (preamble ++ rest) = some preamble.length := by
  rw [eventOpen_eq] at h hrest ⊢
  exact position_glue (by decide) h hrest

/-- The decoder takes an event with the preamble before it, or finds it over the limit. -/
theorem scan_toXml (hS : P.Standard) (hP : P.Plain) {preamble : List UInt8}
    (hpre : position eventOpen preamble = none) (rest : List UInt8) :
    scan (validateXml P) maxEventBytes (preamble ++ (asBytes (e.toXml P) ++ rest)) =
      if maxEventBytes < (asBytes (e.toXml P)).length then .error (.frameTooLarge maxEventBytes)
      else prepend [e.toXml P] (scan (validateXml P) maxEventBytes rest) := by
  have hprefix : eventOpen <+: asBytes (e.toXml P) ++ rest :=
    (eventOpen_prefix_toXml e).trans (List.prefix_append _ _)
  have hlen : (Markup.write (e.innerTags P)).length + 8 = (asBytes (e.toXml P)).length := by
    rw [asBytes_toXml_eq_append, List.length_append, eventClose_length]
  rw [scan_of_open (position_eventOpen_preamble hpre hprefix), List.drop_left,
    position_eventClose_toXml hP]
  simp only
  rw [hlen, List.take_left, List.drop_left, validateXml_toXml hS hP, fromUtf8Lossy_asBytes]

/-- **The decoder takes one event off its input**, with the preamble before it. -/
theorem scan_event (hS : P.Standard) (hP : P.Plain) {preamble : List UInt8}
    (hpre : position eventOpen preamble = none)
    (hmax : (asBytes (e.toXml P)).length ≤ maxEventBytes) (rest : List UInt8) :
    scan (validateXml P) maxEventBytes (preamble ++ (asBytes (e.toXml P) ++ rest)) =
      prepend [e.toXml P] (scan (validateXml P) maxEventBytes rest) := by
  rw [scan_toXml hS hP hpre, if_neg (Nat.not_lt.mpr hmax)]

/-- An event in one segment. -/
theorem push_toXml (hS : P.Standard) (hP : P.Plain)
    (hmax : (asBytes (e.toXml P)).length ≤ maxEventBytes) :
    push (validateXml P) (new maxEventBytes) (asBytes (e.toXml P)) =
      (new maxEventBytes, .ok [e.toXml P]) := by
  have hscan : scan (validateXml P) maxEventBytes (asBytes (e.toXml P)) =
      .ok ([e.toXml P], []) := by
    have hfree : position eventOpen [] = none := by decide
    have hevent := scan_event hS hP hfree hmax []
    rwa [List.nil_append, List.append_nil, scan_nil] at hevent
  generalize asBytes (e.toXml P) = bytes at hscan ⊢
  exact push_of_scan (d := new maxEventBytes) hscan

theorem headD_free {preambles : List (List UInt8)}
    (h : ∀ preamble ∈ preambles, position eventOpen preamble = none) :
    position eventOpen (preambles.headD []) = none := by
  cases preambles with
  | nil => decide
  | cons preamble preambles => exact h preamble (by simp)

/-- The decoder takes the events of a stream and nothing else. The induction is on the events:
each is one frame behind its preamble, and the last preamble is dropped but for five bytes. -/
theorem scan_insertPreambles (hS : P.Standard) (hP : P.Plain) {events : List PositionEvent}
    (hmax : ∀ e ∈ events, (asBytes (e.toXml P)).length ≤ maxEventBytes)
    {preambles : List (List UInt8)}
    (hpre : ∀ preamble ∈ preambles, position eventOpen preamble = none) :
    ∃ kept, scan (validateXml P) maxEventBytes
      (insertPreambles preambles (events.map fun e => (asBytes (e.toXml P)).length)
        (batchBytes P events)) = .ok (events.map (·.toXml P), kept) := by
  induction events generalizing preambles with
  | nil =>
    refine ⟨(preambles.headD []).drop ((preambles.headD []).length - 5), ?_⟩
    rw [List.map_nil, insertPreambles, batchBytes, List.flatMap_nil, List.append_nil,
      scan_of_no_open (headD_free hpre), List.map_nil]
  | cons e events ih =>
    obtain ⟨kept, hkept⟩ := ih (fun e he => hmax e (by simp [he]))
      (fun preamble hmem => hpre preamble (List.mem_of_mem_tail hmem))
    have hbytes : batchBytes P (e :: events) = asBytes (e.toXml P) ++ batchBytes P events := rfl
    refine ⟨kept, ?_⟩
    rw [List.map_cons, insertPreambles, hbytes, List.take_left, List.drop_left,
      scan_event hS hP (headD_free hpre) (hmax e (by simp)), hkept]
    rfl

end Frame

/-! ## The metadata of an event -/

/-- **The uid comes back only if nothing in it is escaped**: what is read is the escaped text, and
nothing undoes the escaping. -/
theorem inspectEvent_uid_iff (hS : P.Standard) (hP : P.Plain) (e : PositionEvent) :
    (∃ received, inspectEvent P (e.toXml P) = .ok received ∧ received.uid = some e.uid) ↔
      Verbatim e.uid := by
  rw [inspectEvent_toXml hS hP, ← escape_eq_self_iff]
  constructor
  · rintro ⟨received, hreceived, huid⟩
    obtain rfl := Except.ok.inj hreceived
    exact Option.some.inj huid
  · exact fun h => ⟨_, rfl, congrArg some h⟩

/-- An uid with markup and one without. -/
theorem inspectEvent_uid_iff_reference :
    ((∃ received, inspectEvent Reference.platform (Reference.event.toXml Reference.platform) =
        .ok received ∧ received.uid = some Reference.event.uid) ↔
      Verbatim Reference.event.uid) ∧
    ((∃ received, inspectEvent Reference.platform
        ({ Reference.event with uid := "tak-bench-a" }.toXml Reference.platform) =
        .ok received ∧ received.uid = some "tak-bench-a") ↔ Verbatim "tak-bench-a") :=
  ⟨inspectEvent_uid_iff Reference.platform_standard Reference.platform_plain _,
    inspectEvent_uid_iff Reference.platform_standard Reference.platform_plain _⟩

/-- An uid that tries to close its event comes back escaped. -/
theorem inspectEvent_uid_escaped :
    ¬ ∃ received, inspectEvent Reference.platform (Reference.event.toXml Reference.platform) =
      .ok received ∧ received.uid = some Reference.event.uid := by
  rw [inspectEvent_toXml Reference.platform_standard Reference.platform_plain]
  rintro ⟨received, hreceived, huid⟩
  obtain rfl := Except.ok.inj hreceived
  exact absurd ((escape_eq_self_iff _).mp (Option.some.inj huid)) (by decide)

/-- **The round trip of a stream.** Whatever batches, chunk sizes, preambles and segments, and
whatever the text fields contain, a decoder whose limit no event exceeds returns the events that
were written, in order, and each is found to carry its own correlation id. -/
theorem received_written (hS : P.Standard) (hP : P.Plain) (maxEventBytes : ℕ) (chunks : List ℕ)
    (batches : List (List PositionEvent)) (preambles segments : List (List UInt8))
    (hmax : ∀ e ∈ batches.flatten, (asBytes (e.toXml P)).length ≤ maxEventBytes)
    (hpre : ∀ preamble ∈ preambles, position eventOpen preamble = none)
    (hsegments : segments.flatten = insertPreambles preambles
      (batches.flatten.map fun e => (asBytes (e.toXml P)).length) (written P chunks batches)) :
    ∃ events, (pushAll (validateXml P) (new maxEventBytes) segments).2 = .ok events ∧
      events = batches.flatten.map (·.toXml P) ∧
      ∃ inspected, events.mapM (inspectEvent P) = .ok inspected ∧
        inspected.map (·.correlationId) = batches.flatten.map fun e => some e.correlationId := by
  obtain ⟨kept, hscan⟩ := scan_insertPreambles hS hP hmax hpre
  rw [written_eq] at hsegments
  -- the segments do not matter: all of them together are scanned
  have hfeed := pushAll_eq_feed (validateXml P) (new maxEventBytes) segments
  have hrun : (pushAll (validateXml P) (new maxEventBytes) segments).2.map (fun events =>
      (events, (pushAll (validateXml P) (new maxEventBytes) segments).1.buffer)) =
      .ok (batches.flatten.map (·.toXml P), kept) := by
    rw [hfeed]
    refine ((scan_lawful _ _).feed_eq (scan_nil _ _) segments).trans ?_
    rw [List.nil_append, hsegments]
    exact hscan
  refine ⟨_, ?_, rfl, ?_⟩
  · cases hpush : (pushAll (validateXml P) (new maxEventBytes) segments).2 with
    | error e => rw [hpush] at hrun; cases hrun
    | ok events =>
      rw [hpush] at hrun
      simp only [Except.map, Except.ok.injEq, Prod.mk.injEq] at hrun
      rw [hrun.1]
  · refine ⟨batches.flatten.map fun e =>
      ⟨e.toXml P, some (escape e.uid), some "a-f-G-U-C", some e.correlationId⟩, ?_, by
        rw [List.map_map]; rfl⟩
    induction batches.flatten with
    | nil => rfl
    | cons e events ih =>
      rw [List.map_cons, List.mapM_cons, inspectEvent_toXml hS hP, ih]
      rfl

/-- Three events in two batches, behind a preamble. -/
def Reference.stream : List UInt8 :=
  insertPreambles [asBytes "<auth>secret</auth>"]
    ([[event, event], [event]].flatten.map fun e => (asBytes (e.toXml platform)).length)
    (written platform [0, 3] [[event, event], [event]])

theorem received_written_reference :
    ∃ events, (pushAll (validateXml Reference.platform) (new (8 * 1024 * 1024))
        [Reference.stream.take 22, [], Reference.stream.drop 22]).2 = .ok events ∧
      events = [[Reference.event, Reference.event], [Reference.event]].flatten.map
        (·.toXml Reference.platform) ∧
      ∃ inspected, events.mapM (inspectEvent Reference.platform) = .ok inspected ∧
        inspected.map (·.correlationId) =
          [[Reference.event, Reference.event], [Reference.event]].flatten.map
            fun e => some e.correlationId := by
  refine received_written Reference.platform_standard Reference.platform_plain (8 * 1024 * 1024)
    [0, 3] [[Reference.event, Reference.event], [Reference.event]] [asBytes "<auth>secret</auth>"] _
    ?_ ?_ ?_
  · intro e he
    simp only [List.flatten_cons, List.flatten_nil, List.cons_append, List.nil_append,
      List.mem_cons, List.not_mem_nil, or_false, or_self] at he
    exact he ▸ Reference.length_toXml_le_limit (by decide)
  · intro preamble hpre
    rw [List.mem_singleton.mp hpre]
    decide
  · rw [List.flatten_cons, List.flatten_cons, List.flatten_cons, List.flatten_nil,
      List.append_nil, List.nil_append, List.take_append_drop]
    rfl

end TakBench
