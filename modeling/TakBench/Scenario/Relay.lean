import TakBench.Scenario.Books
import TakBench.Scenario.Delivery
import TakBench.Scenario.Intake

/-!
# From a sender to a receiver

What a sender has written is the front of the XML of the events that it has made, and at least the
XML of those that it has counted as sent. So a server that passes on the bytes of a sender is a
first-in first-out channel of events: however the batches, the fragments and the reads cut the
bytes, a receiver records the ids in the order in which they are made, and what it lacks is not
passed on or not sent.

## Main definitions

* `wire`: the bytes that are written
* `Effect.made?`: the id of a position event that is made
* `positions`: the position events of the ticks of a sender

## Main results

* `Sender.wire_of_exec`: where the bytes of the events are while a sender runs
* `Session.relayed`: what a receiver records of a sender's events
-/

namespace TakBench

open Search Scanner Utf8 CotStreamDecoder

variable {P : Platform} {participant : ParticipantConfig} {config : AppConfig} {w : World}
  {out : List Effect}

/-! ## The wire -/

/-- The bytes that an effect writes. -/
def Effect.bytes : Effect → List UInt8
  | .write bytes => bytes
  | _ => []

/-- The id of the position event that an effect makes. -/
def Effect.made? : Effect → Option Uuid
  | .generate id => id
  | _ => none

/-- The bytes that are written. -/
def wire (log : List Effect) : List UInt8 := log.flatMap Effect.bytes

theorem wire_append (log out : List Effect) : wire (log ++ out) = wire log ++ wire out :=
  List.flatMap_append

/-- What only counts writes nothing. -/
theorem wire_of_counts (h : ∀ e ∈ out, e.CountsEvents) : wire out = [] := by
  rw [wire, List.flatMap_eq_nil_iff]
  intro e he
  cases e with
  | write bytes => exact (h _ he).elim
  | _ => rfl

/-- No event is made after the tick. -/
theorem made?_of_sends (h : ∀ e ∈ out, e.Sends) : out.filterMap Effect.made? = [] := by
  rw [List.filterMap_eq_nil_iff]
  intro e he
  cases e with
  | generate id => exact (h _ he).elim
  | _ => rfl

namespace Account

variable (a : Account) (effects : List Effect)

/-- The bytes of the writes that are done and of the one in progress are all that are written. -/
theorem recordAll_wire : (a.recordAll effects).flushed ++ (a.recordAll effects).written =
    a.flushed ++ a.written ++ wire effects := by
  induction effects generalizing a with
  | nil => simp [wire]
  | cons e effects ih =>
    rw [recordAll_cons, ih]
    cases e with
    | write bytes => simp [record, wire, Effect.bytes]
    | add counter n => cases counter <;> simp [record, wire, Effect.bytes]
    | _ => rfl

theorem recordAll_sent : (a.recordAll effects).sent = a.sent + total Effect.sent effects := by
  induction effects generalizing a with
  | nil => rfl
  | cons e effects ih =>
    rw [recordAll_cons, ih, total_cons, ← Nat.add_assoc]
    congr 1
    cases e with
    | add counter n => cases counter <;> rfl
    | _ => rfl

theorem mem_recordAll_published {id : Uuid} : id ∈ (a.recordAll effects).published ↔
    id ∈ a.published ∨ ∃ name sentAt, .publish id name sentAt ∈ effects := by
  induction effects generalizing a with
  | nil => simp
  | cons e effects ih =>
    rw [recordAll_cons, ih]
    cases e with
    | publish id' name sentAt => simp [record, or_assoc, exists_or]
    | add counter n => cases counter <;> simp [record]
    | _ => simp [record]

end Account

/-! ## The events of a sender -/

variable (participant config) in
/-- The position events of the ticks of a sender. -/
def positions (acts : List SenderAct) : List PositionEvent :=
  acts.filterMap fun
    | .tick utc id => some (positionEvent participant config utc id)
    | _ => none

variable (P) in
/-- Events that are made of position events have their bytes and their ids. -/
structure Carries (made : List Made) (events : List PositionEvent) : Prop where
  bytes : made.map (·.bytes) = events.map fun e => asBytes (e.toXml P)
  ids : made.map (·.id) = events.map fun e => some e.correlationId

namespace Carries

variable {made sent waiting : List Made} {events : List PositionEvent}

theorem flatMap_bytes (h : Carries P made events) :
    made.flatMap (·.bytes) = batchBytes P events := by
  rw [batchBytes, List.flatMap_def, h.bytes, List.flatMap_def]

theorem filterMap_id (h : Carries P made events) :
    made.filterMap (·.id) = events.map (·.correlationId) :=
  calc made.filterMap (·.id) = (made.map (·.id)).filterMap id := by
        rw [List.filterMap_map, Function.id_comp]
    _ = events.map (·.correlationId) := by
        rw [h.ids, List.filterMap_map, Function.id_comp, List.filterMap_eq_map']

/-- The first of the events that are made carry the first of the position events. -/
theorem take (h : Carries P (sent ++ waiting) events) :
    Carries P sent (events.take sent.length) where
  bytes := by rw [List.map_take, ← h.bytes, ← List.map_take, List.take_left]
  ids := by rw [List.map_take, ← h.ids, ← List.map_take, List.take_left]

end Carries

/-- Without invalid events, all that is made are position events. -/
theorem carries_made (hinvalid : config.scenario.invalid.enabled = false) (count : UInt32)
    (acts : List SenderAct) :
    Carries P (made P participant config count acts) (positions participant config acts) := by
  have hkind : ∀ count, invalidKind config count = none := fun count => by
    simp [invalidKind, hinvalid]
  induction acts generalizing count with
  | nil => exact ⟨rfl, rfl⟩
  | cons act acts ih =>
    cases act with
    | tick utc id =>
      have hrest := ih (count + 1)
      constructor
      · simp only [made, List.map_cons, Made.ofTick, invalidOrPosition, hkind, hrest.bytes,
          Option.map_none, Option.getD_none]
        rfl
      · simp only [made, List.map_cons, Made.ofTick, hkind, hrest.ids, Option.isNone_none, if_true]
        rfl
    | _ => exact ih count

/-- What is made later comes behind. -/
theorem made_front (acts : List SenderAct) (act : SenderAct) :
    (made P participant config 0 acts).flatMap (·.bytes) <+:
      (made P participant config 0 (acts ++ [act])).flatMap (·.bytes) := by
  cases act with
  | tick utc id =>
    rw [made_concat_tick, List.flatMap_append]
    exact List.prefix_append _ _
  | write a =>
    rw [made_concat_write, List.flatMap_map]
    exact List.prefix_rfl
  | stopped | deadline | published => rw [made_concat_other rfl rfl]

namespace Sender

variable {s s' : Sender} {a : Account} {sent waiting : List Made} {act : SenderAct}

/-- A sender that returns writes nothing any more. -/
theorem wire_of_returned {result : Except Failure Unit}
    (h : s.step P participant config w act = some (s', out))
    (hphase : s'.phase = .returned result) : wire out = [] := by
  have hcons : ∀ {bytes : List UInt8} {effects : List Effect}, bytes = [] →
      (∀ e ∈ effects, e.CountsEvents) → wire (.write bytes :: effects) = [] := by
    rintro bytes effects rfl hcounts
    exact (List.nil_append _).trans (wire_of_counts hcounts)
  have hfails : ∀ {write : Write} {wact : WriteAct} {failure : Failure} {bytes : List UInt8},
      write.step config w.now wact = some (.failed failure, bytes) → bytes = [] :=
    fun hwrite => Write.step_fails hwrite (Write.step_isFailed hwrite).symm
  cases steps_of_step h with
  | tick utc id hselecting hdue hp =>
    obtain ⟨-, rfl⟩ := Prod.mk.inj hp
    show wire (s.dispatch P participant config w.now utc id).2 = []
    exact wire_of_counts (s.keeps_dispatch P participant config w.now utc id).effects
  | stopped _ _ hp | deadline _ _ hp =>
    obtain ⟨-, rfl⟩ := Prod.mk.inj hp
    exact wire_of_counts s.keeps_leave.effects
  | flush wact write next outcome bytes hflushing hwrite hp =>
    obtain ⟨rfl, rfl⟩ := Prod.mk.inj hp
    cases outcome with
    | pending write' => cases hphase
    | done => cases hphase
    | failed failure =>
      obtain rfl := hfails hwrite
      have hnone : s.delivered write.written ([] : List UInt8).length = [] := by
        rw [delivered, List.map_eq_nil_iff, List.filter_eq_nil_iff]
        intro c _
        simp
      rw [hnone]
      exact hcons rfl (recordWriteFailure_counts _ _)
  | frame wact write outcome bytes hwriting hwrite hp =>
    obtain ⟨rfl, rfl⟩ := Prod.mk.inj hp
    have hcounts := (s.keeps_frameOutcome config outcome).effects
    cases outcome with
    | pending write' => cases hphase
    | done => exact hcons (Write.step_done hwrite).1 hcounts
    | failed failure => exact hcons (hfails hwrite) hcounts
  | publish next hpublishing hp =>
    obtain ⟨-, rfl⟩ := Prod.mk.inj hp
    have hpublish : wire (s.publish participant) = [] := by
      simp [wire, publish, Effect.bytes, List.flatMap_map]
    rw [wire_append, hpublish, List.nil_append]
    exact wire_of_counts (keeps_afterFlush config { s with batch := {} } w.now next).effects

/-- **The ids of the events that a step makes.** -/
theorem made?_step (h : s.step P participant config w act = some (s', out))
    {acts : List SenderAct} (hcount : s.eventCount = countAfter 0 acts) :
    (made P participant config 0 (acts ++ [act])).filterMap (·.id) =
      (made P participant config 0 acts).filterMap (·.id) ++ out.filterMap Effect.made? := by
  rcases step_cases h with ⟨utc, id, rfl, -, effects, rfl, hkeeps⟩ | ⟨hact, hidles⟩
  · have hid : (Made.ofTick P participant config (countAfter 0 acts) utc id false).id =
        s.eventId config id := by rw [Made.ofTick, eventId, hcount]
    rw [made_concat_tick, List.filterMap_append, List.filterMap_cons (f := Effect.made?),
      made?_of_sends hkeeps.sends]
    simp only [List.filterMap_cons, List.filterMap_nil, hid, Effect.made?]
  · rw [made?_of_sends hidles.2.2.2.2, List.append_nil]
    cases act with
    | tick utc id => exact absurd rfl (hact utc id)
    | write a =>
      rw [made_concat_write, List.filterMap_map]
      rfl
    | stopped | deadline | published => rw [made_concat_other rfl rfl]

/-- What is sent is written, and what is published is sent. -/
theorem Standing.settled (h : Standing config s a sent waiting) :
    a.flushed = sent.flatMap (·.bytes) ∧ a.sent = sent.length ∧
      ∀ id ∈ a.published, id ∈ sent.filterMap (·.id) := by
  cases h with
  | selecting _ ha | flushing _ _ _ ha | writingFrame _ _ _ _ ha | returned _ _ _ ha =>
    subst ha
    exact ⟨rfl, rfl, fun _ hid => hid⟩
  | publishing published _ ha _ hids =>
    subst ha
    exact ⟨rfl, rfl, fun _ hid => hids ▸ List.mem_append_left _ hid⟩

/-- While a sender is alive, it writes the events in order. -/
theorem Standing.front (h : Standing config s a sent waiting)
    (halive : ∀ result, s.phase ≠ .returned result) :
    a.flushed ++ a.written <+: (sent ++ waiting).flatMap (·.bytes) := by
  rw [List.flatMap_append]
  cases h with
  | selecting _ ha | publishing _ _ ha =>
    subst ha
    exact (List.append_nil _).symm ▸ List.prefix_append _ _
  | flushing write written _ ha hholds hbytes =>
    subst ha
    refine (List.prefix_append_right_inj _).mpr ⟨write.fragments.flatten, hbytes.trans ?_⟩
    exact hholds.bytes
  | writingFrame write frame written _ ha _ hwaiting _ hbytes =>
    subst ha hwaiting
    refine (List.prefix_append_right_inj _).mpr ⟨write.fragments.flatten, hbytes.trans ?_⟩
    exact (List.flatMap_singleton _ _).symm
  | returned result _ hphase => exact absurd hphase (halive result)

variable (P participant config) in
/-- The bytes written are the front of the XML of the events made, and their ids are those made. -/
structure Streams (t : Sender × List Effect) (acts : List SenderAct) : Prop where
  front : wire t.2 <+: (made P participant config 0 acts).flatMap (·.bytes)
  ids : t.2.filterMap Effect.made? = (made P participant config 0 acts).filterMap (·.id)

variable (P participant config) in
/-- What holds of a run up to now, until the counter wraps. -/
def Streamed (t : Sender × List Effect) (inputs : List (World × SenderAct)) : Prop :=
  InOrder P participant config t inputs ∧ ((inputs.map (·.2)).countP (·.isTick) < 2 ^ 32 →
    Streams P participant config t (inputs.map (·.2)))

/-- **Each step writes the next bytes of the events made.** -/
theorem streamed_step {t u : Sender × List Effect} {before : List (World × SenderAct)}
    {i : World × SenderAct} (ht : Streamed P participant config t before)
    (h : (component P participant config).logged.step t i = some u) :
    Streamed P participant config u (before ++ [i]) := by
  obtain ⟨hinOrder, hstreams⟩ := ht
  have hinOrder' := inOrder_step hinOrder h
  refine ⟨hinOrder', fun hticks => ?_⟩
  obtain ⟨out, hstep, hlog⟩ := Component.logged_step.mp h
  have hreconciled' := hinOrder'.reconciled hticks
  rw [List.map_append, List.map_singleton] at hticks hreconciled' ⊢
  have hbefore : (before.map (·.2)).countP (·.isTick) < 2 ^ 32 := by
    rw [List.countP_append] at hticks
    omega
  obtain ⟨hfront, hids⟩ := hstreams hbefore
  constructor
  · by_cases hreturned : ∃ result, u.1.phase = .returned result
    · -- the last step writes nothing
      obtain ⟨result, hphase⟩ := hreturned
      rw [hlog, wire_append, wire_of_returned hstep hphase, List.append_nil]
      exact hfront.trans (made_front _ _)
    · obtain ⟨-, sent, waiting, hmade, hstanding⟩ := hreconciled'
      have hall := hstanding.front (not_exists.mp hreturned)
      rw [account, Account.recordAll_wire] at hall
      exact hmade ▸ hall
  · rw [hlog, List.filterMap_append, hids, made?_step hstep (hinOrder.reconciled hbefore).1]

/-- **Where the bytes of the events are**, at any time while a sender runs: the events that are
sent are written, the others may be written in part, and what is published is sent. -/
theorem wire_of_exec {created : Instant} {interval : Duration}
    {inputs : List (World × SenderAct)} {log : List Effect}
    (h : (component P participant config).logged.exec (Sender.new created interval, []) inputs =
      some (s, log)) (hticks : (inputs.map (·.2)).countP (·.isTick) < 2 ^ 32) :
    ∃ sent waiting, made P participant config 0 (inputs.map (·.2)) = sent ++ waiting ∧
      total Effect.sent log = sent.length ∧
      (∀ id name sentAt, .publish id name sentAt ∈ log → id ∈ sent.filterMap (·.id)) ∧
      log.filterMap Effect.made? = (sent ++ waiting).filterMap (·.id) ∧
      sent.flatMap (·.bytes) <+: wire log ∧
      wire log <+: (sent ++ waiting).flatMap (·.bytes) := by
  have hstart : Streamed P participant config (Sender.new created interval, []) [] :=
    ⟨⟨fun _ => ⟨rfl, [], [], rfl, .selecting rfl rfl ⟨rfl, rfl, rfl⟩ (by simp) (by simp)⟩, by simp⟩,
      fun _ => ⟨List.prefix_rfl, rfl⟩⟩
  obtain ⟨hinOrder, hstreams⟩ :=
    Machine.exec_invariant_inputs (fun _ _ _ _ => streamed_step) hstart h
  obtain ⟨hfront, hids⟩ := hstreams hticks
  obtain ⟨-, sent, waiting, hmade, hstanding⟩ := hinOrder.reconciled hticks
  obtain ⟨hflushed, hsent, hpublished⟩ := hstanding.settled
  refine ⟨sent, waiting, hmade, ?_, fun id name sentAt hmem => ?_, hmade ▸ hids, ?_, hmade ▸ hfront⟩
  · rw [← hsent, account, Account.recordAll_sent]
    exact (Nat.zero_add _).symm
  · exact hpublished id ((Account.mem_recordAll_published _ _).mpr (.inr ⟨name, sentAt, hmem⟩))
  · rw [← hflushed]
    have hwire := Account.recordAll_wire {} log
    exact ⟨(account log).written, hwire⟩

end Sender

/-- **Where the position events of a sender are**: the first of them are sent, and what is written
is the front of their XML. -/
theorem Sender.positions_of_exec {s : Sender} {created : Instant} {interval : Duration}
    {inputs : List (World × SenderAct)} {log : List Effect}
    (hinvalid : config.scenario.invalid.enabled = false)
    (h : (component P participant config).logged.exec (Sender.new created interval, []) inputs =
      some (s, log)) (hticks : (inputs.map (·.2)).countP (·.isTick) < 2 ^ 32) :
    ∃ events, (∀ e ∈ events, ∃ utc id, e = positionEvent participant config utc id) ∧
      log.filterMap Effect.made? = events.map (·.correlationId) ∧
      total Effect.sent log ≤ events.length ∧
      (∀ id name sentAt, .publish id name sentAt ∈ log →
        id ∈ (events.take (total Effect.sent log)).map (·.correlationId)) ∧
      batchBytes P (events.take (total Effect.sent log)) <+: wire log ∧
      wire log <+: batchBytes P events := by
  obtain ⟨sent, waiting, hmade, hsent, hpublished, hids, hflushed, hfront⟩ := wire_of_exec h hticks
  have hall : Carries P (made P participant config 0 (inputs.map (·.2)))
      (positions participant config (inputs.map (·.2))) := carries_made hinvalid 0 _
  rw [hmade] at hall
  refine ⟨positions participant config (inputs.map (·.2)), fun e he => ?_,
    hids.trans hall.filterMap_id, ?_, ?_, ?_, hall.flatMap_bytes ▸ hfront⟩
  · obtain ⟨act, -, hact⟩ := List.mem_filterMap.mp he
    split at hact
    · next utc id => exact ⟨utc, id, (Option.some.inj hact).symm⟩
    · cases hact
  · have hlength := congrArg List.length hall.bytes
    rw [List.length_map, List.length_map, List.length_append] at hlength
    omega
  · rw [hsent, ← hall.take.filterMap_id]
    exact hpublished
  · rw [hsent, ← hall.take.flatMap_bytes]
    exact hflushed

/-! ## The receiver -/

/-- Nothing but a greeting comes before the first event. -/
theorem insertPreambles_greeting (greeting : List UInt8) (lengths : List ℕ) (bytes : List UInt8) :
    insertPreambles [greeting] lengths bytes = greeting ++ bytes := by
  have hnone : ∀ lengths bytes, insertPreambles [] lengths bytes = bytes := by
    intro lengths
    induction lengths with
    | nil => exact fun bytes => rfl
    | cons length lengths ih =>
      intro bytes
      rw [insertPreambles, List.tail_nil, ih, List.take_append_drop]
      rfl
  cases lengths with
  | nil => rfl
  | cons length lengths =>
    rw [insertPreambles, List.tail_cons, hnone, List.take_append_drop]
    rfl

section Receiver

variable {receiver : ParticipantConfig} {session : Session} {inputs : List (World × SessionAct)}
  {log : List Effect} {events : List PositionEvent} {greeting : List UInt8}

/-- Behind a greeting, a session whose reader waits has recorded the events that it has read. -/
theorem Session.recorded_first {reader : Reader} {since : Instant} {n : ℕ} (hS : P.Standard)
    (hP : P.Plain) (hmax : ∀ e ∈ events, (asBytes (e.toXml P)).length ≤ 8 * 1024 * 1024)
    (hgreeting : ∀ preamble ∈ [greeting], position eventOpen preamble = none)
    (h : (component P receiver config).logged.exec (start receiver config w, []) inputs =
      some (session, log))
    (hreader : session.reader? = some reader) (hphase : reader.phase = .reading since)
    (hfront : taken inputs <+: greeting ++ batchBytes P events)
    (hread : greeting ++ batchBytes P (events.take n) <+: taken inputs) :
    (events.take n).length ≤ total Effect.received log ∧
      (events.take n).map (·.correlationId) <+: log.filterMap Effect.recorded? := by
  have hmaxFirst : ∀ e ∈ events.take n, (asBytes (e.toXml P)).length ≤ 8 * 1024 * 1024 :=
    fun e he => hmax e (List.mem_of_mem_take he)
  rw [← insertPreambles_greeting greeting (events.map fun e => (asBytes (e.toXml P)).length)]
    at hfront
  obtain ⟨m, kept, hscan⟩ := scan_front hS hP hmax hgreeting hfront
  obtain ⟨hcount, hrecorded⟩ := recorded_rest hS hP h hreader hphase hscan
  -- the first events are found in what is read
  obtain ⟨kept', hscanFirst⟩ := scan_insertPreambles hS hP hmaxFirst hgreeting
  rw [insertPreambles_greeting] at hscanFirst
  obtain ⟨rest, hrest⟩ := hread
  rw [← hrest] at hscan
  obtain ⟨found, kept'', hfound, htake⟩ := (scan_lawful _ _).exists_take hscan
  obtain ⟨rfl, -⟩ := Prod.mk.inj (Except.ok.inj (hscanFirst.symm.trans hfound))
  have hle : (events.take n).length ≤ (events.take m).length := by
    simpa only [List.length_map] using htake.length_le
  refine ⟨hcount ▸ hle, hrecorded ▸ List.IsPrefix.map _ ?_⟩
  exact List.prefix_of_prefix_length_le (List.take_prefix n events) (List.take_prefix m events) hle

/-- **A server that passes on the bytes of a sender is a channel of events.** Whatever greeting it
sends first, and however the batches, the fragments and the reads cut the bytes, the receiver
records ids of the sender's events in the order in which they are made, it counts no event that is
not made, and it does not fail to parse. When its reader waits and has read all that is written,
it has counted all events that are counted as sent, and recorded them and all that the ledger has as
sent. -/
theorem Session.relayed {sender : ParticipantConfig} {created : Instant} {interval : Duration}
    {acts : List (World × SenderAct)} {s : Sender} {sentLog : List Effect}
    (hS : P.Standard) (hP : P.Plain) (hinvalid : config.scenario.invalid.enabled = false)
    (hmax : ∀ utc id, (asBytes (positionXml P sender config utc id)).length ≤ 8 * 1024 * 1024)
    (hgreeting : position eventOpen greeting = none)
    (hsend : (Sender.component P sender config).logged.exec (Sender.new created interval, []) acts =
      some (s, sentLog))
    (hticks : (acts.map (·.2)).countP (·.isTick) < 2 ^ 32)
    (hreceive : (component P receiver config).logged.exec (start receiver config w, []) inputs =
      some (session, log))
    (hrelay : taken inputs <+: greeting ++ wire sentLog) :
    log.filterMap Effect.recorded? <+: sentLog.filterMap Effect.made? ∧
      total Effect.received log ≤ (sentLog.filterMap Effect.made?).length ∧
      session ≠ .returned (.error [.runtime .parse]) ∧
      ∀ reader since, session.reader? = some reader → reader.phase = .reading since →
        taken inputs = greeting ++ wire sentLog →
        total Effect.sent sentLog ≤ total Effect.received log ∧
        (sentLog.filterMap Effect.made?).take (total Effect.sent sentLog) <+:
          log.filterMap Effect.recorded? ∧
        ∀ id name sentAt, .publish id name sentAt ∈ sentLog →
          id ∈ log.filterMap Effect.recorded? := by
  obtain ⟨events, hpositions, hids, hcount, hpublished, hflushed, hfront⟩ :=
    Sender.positions_of_exec hinvalid hsend hticks
  have hlimit : ∀ e ∈ events, (asBytes (e.toXml P)).length ≤ 8 * 1024 * 1024 := by
    intro e he
    obtain ⟨utc, id, rfl⟩ := hpositions e he
    exact hmax utc id
  have hpre : ∀ preamble ∈ [greeting], position eventOpen preamble = none :=
    List.forall_mem_singleton.mpr hgreeting
  have hstream : taken inputs <+: greeting ++ batchBytes P events :=
    hrelay.trans ((List.prefix_append_right_inj _).mpr hfront)
  obtain ⟨⟨n, hreceived, hrecorded⟩, hparse⟩ := recorded_front hS hP hlimit hpre hreceive
    ((insertPreambles_greeting greeting _ _).symm ▸ hstream)
  rw [hids]
  refine ⟨hrecorded.trans ((List.take_prefix n _).map _), ?_, hparse, ?_⟩
  · rw [hreceived, List.length_take, List.length_map]
    exact min_le_right _ _
  · intro reader since hreader hphase hall
    have hread : greeting ++ batchBytes P (events.take (total Effect.sent sentLog)) <+:
        taken inputs := hall ▸ (List.prefix_append_right_inj _).mpr hflushed
    obtain ⟨hle, hfirst⟩ := recorded_first hS hP hlimit hpre hreceive hreader hphase hstream hread
    rw [List.length_take, min_eq_left hcount] at hle
    refine ⟨hle, ?_, fun id name sentAt hmem => hfirst.subset (hpublished id name sentAt hmem)⟩
    rw [← List.map_take]
    exact hfirst

end Receiver

/-! ## One event behind a greeting -/

namespace Session.Split

def sender : ParticipantConfig := { id := "sender", role := .sendOnly }

/-- The event that is sent. -/
def event : PositionEvent := positionEvent sender {} 0 7

/-- The world when the sender ticks. -/
def tickWorld : World := { World.initial false with now := 10 }

/-- The sender after its tick. -/
def ticked (bytes : List UInt8) (phase : SenderPhase) : Sender :=
  ⟨10, 20, ⟨bytes, [⟨7, 10, bytes.length⟩], 1⟩, 1, phase⟩

/-- The event is made and written. -/
def sending (n : ℕ) : List (World × SenderAct) :=
  [.tick 0 7, .write (.wrote n), .write .flushed].map fun act => (tickWorld, act)

/-- A step of the sender. -/
theorem step_sender {s s' : Sender} {log out : List Effect} {act : SenderAct}
    (h : s.step P sender {} tickWorld act = some (s', out)) :
    (Sender.component P sender {}).logged.step (s, log) (tickWorld, act) = some (s', log ++ out) :=
  Component.logged_step.mpr ⟨out, h, rfl⟩

/-- The effects of sending one event. -/
def sentLog (bytes : List UInt8) : List Effect :=
  [.generate (some 7), .write bytes, .deliver 7, .write [], .add .sentMessages 1]

theorem wire_sentLog (bytes : List UInt8) : wire (sentLog bytes) = bytes := by
  simp [wire, sentLog, Effect.bytes]

theorem exec_sending {bytes : List UInt8} (hbytes : asBytes (positionXml P sender {} 0 7) = bytes)
    (hne : bytes ≠ []) (hlimit : bytes.length ≤ 8192) :
    (Sender.component P sender {}).logged.exec (Sender.new 0 10, []) (sending bytes.length) =
      some (ticked bytes (.publishing .batch), sentLog bytes) := by
  have hfull : (Sender.new 0 10).tick P sender {} 10 0 7 = _ :=
    Sender.tick_of_full rfl rfl hbytes (by simpa [Sender.new] using hlimit.trans (by decide))
      le_rfl hne
  have htick : (Sender.new 0 10).step P sender {} tickWorld (.tick 0 7) =
      some (ticked bytes (.flushing ⟨[bytes], 0, 10⟩ .batch), [.generate (some 7)]) := by
    refine (congrArg some hfull).trans ?_
    simp [Sender.new, ticked, Sender.withPosition, Sender.push, nextTimeout]
  have hwrite : (ticked bytes (.flushing ⟨[bytes], 0, 10⟩ .batch)).step P sender {} tickWorld
      (.write (.wrote bytes.length)) =
      some (ticked bytes (.flushing ⟨[[]], bytes.length, 10⟩ .batch),
        [.write bytes, .deliver 7]) := by
    have hpos : 0 < bytes.length := List.length_pos_of_ne_nil hne
    simp [Sender.step, Write.step, ticked, Sender.flushOutcome, Sender.delivered, hpos]
  have hflush : (ticked bytes (.flushing ⟨[[]], bytes.length, 10⟩ .batch)).step P sender {}
      tickWorld (.write .flushed) =
      some (ticked bytes (.publishing .batch), [.write [], .add .sentMessages 1]) := by
    simp [Sender.step, Write.step, ticked, Sender.flushOutcome, Sender.delivered]
  refine Machine.exec_step (step_sender htick) (Machine.exec_step (step_sender hwrite)
    (Machine.exec_step (step_sender hflush) ?_))
  rfl

theorem length_event (utc : OffsetDateTime) (id : Uuid) :
    (asBytes (positionXml Reference.platform sender {} utc id)).length ≤ 8192 :=
  (Reference.length_toXml_le _).trans (show 4 * ((escape "tak-bench-sender").toList.length +
    (escape "sender").toList.length + 600) ≤ 8192 by decide)

end Session.Split

open Session.Split in
/-- The receiver has recorded the event that is sent. -/
theorem Session.relayed_split :
    ∃ log, (component Reference.platform receiver {}).logged.exec
        (start receiver {} (World.initial false), [])
        (inputs (asBytes (event.toXml Reference.platform))) =
          some (Split.receiving (CotStreamDecoder.new (8 * 1024 * 1024)) (.reading 0), log) ∧
      [7] <+: log.filterMap Effect.recorded? := by
  have hlimit : (asBytes (event.toXml Reference.platform)).length ≤ 8192 := length_event 0 7
  have hreceive := exec_inputs Reference.platform_standard Reference.platform_plain hlimit
  have hall : taken (inputs (asBytes (event.toXml Reference.platform))) =
      preamble ++ wire (sentLog (asBytes (event.toXml Reference.platform))) := by
    rw [taken_inputs, wire_sentLog]
  exact ⟨_, hreceive, ((relayed Reference.platform_standard Reference.platform_plain rfl
    (fun utc id => (length_event utc id).trans (by decide)) (by decide)
    (exec_sending rfl (asBytes_toXml_ne_nil _) hlimit) (by decide) hreceive
    (hall ▸ List.prefix_rfl)).2.2.2 _ _ rfl rfl hall).2.1⟩

end TakBench
