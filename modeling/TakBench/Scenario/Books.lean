import TakBench.Protocol.RoundTrip
import TakBench.Scenario.Accounting

/-!
# The books of a sender

A sender that has returned has put each of its events in one place: it is sent, with its bytes on
the wire and its id in the ledger, or it is dropped. The invariant says where the events stand at
each point at which the sender is suspended: those that are sent come before those that wait, the
batch holds the ones that wait, and a write in progress writes them. An oversized frame never waits
with a batch, since the frames come first.

## Main definitions

* `made`: the events that the ticks of a run make
* `Account`, `account`: what the effects of a sender add up to
* `Sender.Standing`: where the events stand

## Main results

* `World.applyAll_account`: the account of a sender is what it does to the world
* `Sender.standing_step`: each step keeps the events in their places
* `Sender.books_balance`: where the events are when `send_positions` returns
-/

namespace TakBench

open Utf8

variable {P : Platform} {participant : ParticipantConfig} {config : AppConfig}

/-! ## The events of a run -/

/-- An event that a sender has made; an invalid one has no id. -/
structure Made where
  bytes : List UInt8
  id : Option Uuid
  /-- is there a step of a write after it? -/
  attempted : Bool

def SenderAct.isTick : SenderAct → Bool
  | .tick _ _ => true
  | _ => false

def SenderAct.isWrite : SenderAct → Bool
  | .write _ => true
  | _ => false

variable (P participant config) in
/-- The event that a tick makes after `count` others. -/
def Made.ofTick (count : UInt32) (utc : OffsetDateTime) (id : Uuid) (attempted : Bool) : Made where
  bytes := (invalidOrPosition config count).getD (asBytes (positionXml P participant config utc id))
  id := if (invalidKind config count).isNone then some id else none
  attempted

variable (P participant config) in
/-- The events that the ticks of a run make, after `count` others. -/
def made (count : UInt32) : List SenderAct → List Made
  | [] => []
  | .tick utc id :: acts =>
    .ofTick P participant config count utc id (acts.any (·.isWrite)) :: made (count + 1) acts
  | _ :: acts => made count acts

/-- The counter after the ticks of a run. -/
def countAfter (count : UInt32) : List SenderAct → UInt32
  | [] => count
  | .tick _ _ :: acts => countAfter (count + 1) acts
  | _ :: acts => countAfter count acts

/-- A write of an event is attempted. -/
def Made.attempt (e : Made) : Made := { e with attempted := true }

section Made

variable {count : UInt32} {acts : List SenderAct} {utc : OffsetDateTime} {id : Uuid}

theorem made_concat_tick : made P participant config count (acts ++ [.tick utc id]) =
    made P participant config count acts ++
      [.ofTick P participant config (countAfter count acts) utc id false] := by
  induction acts generalizing count with
  | nil => rfl
  | cons a acts ih =>
    cases a with
    | tick utc' id' =>
      have hany : (acts ++ [SenderAct.tick utc id]).any (·.isWrite) = acts.any (·.isWrite) := by
        simp [SenderAct.isWrite]
      rw [List.cons_append, made, made, ih, hany]
      rfl
    | _ => exact ih

theorem made_concat_write {a : WriteAct} : made P participant config count (acts ++ [.write a]) =
    (made P participant config count acts).map Made.attempt := by
  induction acts generalizing count with
  | nil => rfl
  | cons b acts ih =>
    cases b with
    | tick utc' id' =>
      have hany : (acts ++ [SenderAct.write a]).any (·.isWrite) = true := by
        simp [SenderAct.isWrite]
      rw [List.cons_append, made, made, ih, hany]
      rfl
    | _ => exact ih

theorem made_concat_other {a : SenderAct} (htick : a.isTick = false) (hwrite : a.isWrite = false) :
    made P participant config count (acts ++ [a]) = made P participant config count acts := by
  induction acts generalizing count with
  | nil => cases a <;> first | rfl | cases htick
  | cons b acts ih =>
    cases b with
    | tick utc' id' =>
      have hany : (acts ++ [a]).any (·.isWrite) = acts.any (·.isWrite) := by simp [hwrite]
      rw [List.cons_append, made, made, ih, hany]
    | _ => exact ih

theorem countAfter_concat (count : UInt32) (acts : List SenderAct) (a : SenderAct) :
    countAfter count (acts ++ [a]) = countAfter count acts + if a.isTick then 1 else 0 := by
  induction acts generalizing count with
  | nil => cases a <;> simp [countAfter, SenderAct.isTick]
  | cons b acts ih =>
    cases b with
    | tick utc' id' => exact ih (count + 1)
    | _ => exact ih count

/-- The counter does not wrap before the last of its values. -/
theorem toNat_countAfter (h : acts.countP (·.isTick) < 2 ^ 32) :
    (countAfter 0 acts).toNat = acts.countP (·.isTick) := by
  induction acts using List.reverseRecOn with
  | nil => rfl
  | append_singleton acts a ih =>
    rw [List.countP_append, List.countP_singleton] at h ⊢
    have ih := ih (by omega)
    rw [countAfter_concat]
    split
    · next htick =>
      rw [if_pos htick] at h
      rw [UInt32.toNat_add, ih]
      exact Nat.mod_eq_of_lt h
    · exact (congrArg UInt32.toNat (UInt32.add_zero _)).trans ih

end Made

theorem oversizedFrame_ne_nil : oversizedFrame ≠ [] := by
  have hopen : asBytes "<event>" ≠ [] := by decide
  rw [oversizedFrame]
  exact List.append_ne_nil_of_left_ne_nil (List.append_ne_nil_of_left_ne_nil hopen _) _

theorem invalidOrPosition_ne_nil {count : UInt32} {bytes : List UInt8}
    (h : invalidOrPosition config count = some bytes) : bytes ≠ [] := by
  rw [invalidOrPosition, Option.map_eq_some_iff] at h
  obtain ⟨kind, -, hbytes⟩ := h
  rw [← hbytes]
  cases kind with
  | oversizedFrame => exact oversizedFrame_ne_nil
  | _ => simp only; decide

variable (P participant config) in
/-- No event is empty. -/
theorem Made.ofTick_bytes_ne_nil (count : UInt32) (utc : OffsetDateTime) (id : Uuid)
    (attempted : Bool) : (ofTick P participant config count utc id attempted).bytes ≠ [] := by
  have hposition : asBytes (positionXml P participant config utc id) ≠ [] := by
    rw [positionXml]
    exact asBytes_toXml_ne_nil _
  simp only [ofTick]
  cases h : invalidOrPosition config count with
  | none => rwa [Option.getD_none]
  | some bytes =>
    rw [Option.getD_some]
    exact invalidOrPosition_ne_nil h

/-- Frames come first: an event that is not one is followed by none. -/
theorem invalidKind_succ {count : UInt32} (hcount : count.toNat + 1 < 2 ^ 32)
    (h : invalidKind config (count + 1) = some .oversizedFrame) :
    invalidKind config count = some .oversizedFrame := by
  have hsucc : (count + 1).toNat = count.toNat + 1 := by
    rw [UInt32.toNat_add]
    exact Nat.mod_eq_of_lt hcount
  rw [invalidKind] at h ⊢
  split at h
  · cases h
  · next hlater =>
    rw [if_neg, h]
    simp only [Bool.or_eq_true, decide_eq_true_eq, not_or, UInt32.le_iff_toNat_le, hsucc]
      at hlater ⊢
    exact ⟨hlater.1, fun hle => hlater.2 (hle.trans (Nat.le_succ _))⟩

/-! ## The account of a sender -/

/-- What the effects of a sender add up to. -/
structure Account where
  /-- the bytes of the writes that are done -/
  flushed : List UInt8 := []
  /-- the bytes that a write in progress has written -/
  written : List UInt8 := []
  /-- the ids added to the ledger -/
  published : List Uuid := []
  sent : ℕ := 0
  dropped : ℕ := 0
  localDropped : ℕ := 0
  deriving DecidableEq

namespace Account

/-- A write is done when its events are counted as sent. -/
def record (a : Account) : Effect → Account
  | .write bytes => { a with written := a.written ++ bytes }
  | .add .sentMessages n =>
    { a with flushed := a.flushed ++ a.written, written := [], sent := a.sent + n }
  | .add .droppedMessages n => { a with dropped := a.dropped + n }
  | .add .localDroppedMessages n => { a with localDropped := a.localDropped + n }
  | .publish id _ _ => { a with published := a.published ++ [id] }
  | _ => a

def recordAll (a : Account) (effects : List Effect) : Account := effects.foldl record a

variable (a : Account)

@[simp] theorem recordAll_nil : a.recordAll [] = a := rfl

@[simp] theorem recordAll_cons (e : Effect) (effects : List Effect) :
    a.recordAll (e :: effects) = (a.record e).recordAll effects := rfl

@[simp] theorem recordAll_append (effects effects' : List Effect) :
    a.recordAll (effects ++ effects') = (a.recordAll effects).recordAll effects' := by
  simp [recordAll]

theorem recordAll_localDrop (events : ℕ) : a.recordAll (recordLocalDrop events) =
    { a with dropped := a.dropped + events, localDropped := a.localDropped + events } := rfl

theorem recordAll_writeFailure (events : ℕ) (failure : Failure) :
    a.recordAll (recordWriteFailure events failure) = { a with dropped := a.dropped + events } := by
  rw [recordWriteFailure]
  split <;> rfl

/-- The receiver's side of a write is not in the account. -/
theorem recordAll_delivered (s : Sender) (written n : ℕ) :
    a.recordAll (s.delivered written n) = a := by
  rw [Sender.delivered]
  induction s.batch.correlations.filter _ with
  | nil => rfl
  | cons c correlations ih => exact ih

theorem recordAll_publish (s : Sender) : a.recordAll (s.publish participant) =
    { a with published := a.published ++ s.batch.correlations.map (·.id) } := by
  rw [Sender.publish]
  induction s.batch.correlations generalizing a with
  | nil => simp
  | cons c correlations ih =>
    rw [List.map_cons, recordAll_cons, ih]
    simp [record]

end Account

/-- The account of a log. -/
def account (log : List Effect) : Account := ({} : Account).recordAll log

theorem account_append (log out : List Effect) :
    account (log ++ out) = (account log).recordAll out :=
  Account.recordAll_append _ log out

/-- The world is ahead of `w₀` by what is in the account. -/
structure Account.Explains (w₀ : World) (a : Account) (w : World) : Prop where
  sent : w.counters .sentMessages = w₀.counters .sentMessages + a.sent
  dropped : w.counters .droppedMessages = w₀.counters .droppedMessages + a.dropped
  localDropped :
    w.counters .localDroppedMessages = w₀.counters .localDroppedMessages + a.localDropped
  published : ∀ id, id ∈ w.ledger.sent ↔ id ∈ w₀.ledger.sent ∨ id ∈ a.published

/-- What a sender does: it makes, writes, publishes and counts events. -/
def Effect.OfSender : Effect → Prop
  | .generate _ => True
  | e => e.Sends

theorem Account.Explains.record {w₀ w : World} {a : Account} {e : Effect}
    (h : a.Explains w₀ w) (he : e.OfSender) : (a.record e).Explains w₀ (w.apply e) := by
  obtain ⟨sent, dropped, localDropped, published⟩ := h
  cases e with
  | add counter n =>
    cases counter with
    | sentMessages | droppedMessages | localDroppedMessages =>
      refine ⟨?_, ?_, ?_, published⟩ <;>
        simp [World.apply, Account.record, sent, dropped, localDropped, Nat.add_assoc]
    | _ => exact ⟨sent, dropped, localDropped, published⟩
  | publish id sender sentAt =>
    refine ⟨sent, dropped, localDropped, fun id' => ?_⟩
    simp only [World.apply, Account.record, AList.mem_insert, published, List.mem_append,
      List.mem_singleton]
    tauto
  | sub | record | emit | markReady | notifyWaiters | observe => exact he.elim
  | _ => exact ⟨sent, dropped, localDropped, published⟩

/-- **The account of a sender is what it does to the world.** -/
theorem World.applyAll_account {w₀ w : World} {a : Account} {effects : List Effect}
    (h : a.Explains w₀ w) (heffects : ∀ e ∈ effects, e.OfSender) :
    (a.recordAll effects).Explains w₀ (w.applyAll effects) := by
  induction effects generalizing w a with
  | nil => exact h
  | cons e effects ih =>
    exact ih (h.record (heffects e List.mem_cons_self))
      fun e' he' => heffects e' (List.mem_cons_of_mem e he')

/-! ## Writes -/

variable (config) in
/-- A write starts with all of its bytes before it. -/
theorem Write.start_of_ne_nil {bytes : List UInt8} (now : Instant) (h : bytes ≠ []) :
    ∃ write, Write.start config bytes now = .pending write ∧ write.fragments.flatten = bytes := by
  have hflatten := fragments_flatten config.scenario.fragmentation.chunkSizes bytes
  rw [start]
  split
  · next hnil =>
    rw [hnil] at hflatten
    exact absurd hflatten.symm h
  · exact ⟨_, rfl, hflatten⟩

/-- The bytes that a write takes come off those before it. -/
theorem Write.step_pending {now : Instant} {write write' : Write} {act : WriteAct}
    {bytes : List UInt8} (h : write.step config now act = some (.pending write', bytes)) :
    bytes ++ write'.fragments.flatten = write.fragments.flatten := by
  cases act with
  | wrote n =>
    simp only [step] at h
    split at h
    · cases h
    · next current rest hfragments =>
      simp only [Option.ite_none_right_eq_some, Option.some.injEq, Prod.mk.injEq,
        WriteOutcome.pending.injEq] at h
      obtain ⟨-, rfl, rfl⟩ := h
      -- what is taken and what is left make up the fragment
      rw [hfragments, List.flatten_cons, List.flatten_cons, ← List.append_assoc,
        List.take_append_drop]
  | flushed =>
    simp only [step] at h
    split at h
    · simp at h
    · next rest hne hfragments =>
      simp only [Option.some.injEq, Prod.mk.injEq, WriteOutcome.pending.injEq] at h
      obtain ⟨rfl, rfl⟩ := h
      rw [hfragments]
      rfl
    · cases h
  | failed context isInvalidData => simp [step] at h
  | timedOut => simp [step] at h

/-- A write is done when no bytes are before it. -/
theorem Write.step_done {now : Instant} {write : Write} {act : WriteAct} {bytes : List UInt8}
    (h : write.step config now act = some (.done, bytes)) :
    bytes = [] ∧ write.fragments.flatten = [] := by
  cases act with
  | flushed =>
    simp only [step] at h
    split at h
    · next hfragments =>
      obtain ⟨-, rfl⟩ := Prod.mk.inj (Option.some.inj h)
      exact ⟨rfl, by rw [hfragments]; rfl⟩
    · simp at h
    · cases h
  | wrote n =>
    simp only [step] at h
    split at h <;> simp at h
  | failed context isInvalidData => simp [step] at h
  | timedOut => simp [step] at h

/-! ## Where the events stand -/

/-- The batch holds the events that wait. -/
structure OutgoingBatch.Holds (batch : OutgoingBatch) (waiting : List Made) : Prop where
  bytes : batch.bytes = waiting.flatMap (·.bytes)
  ids : batch.correlations.map (·.id) = waiting.filterMap (·.id)
  events : batch.events = waiting.length

/-- The account when the events of `sent` are sent and no others are settled. -/
def settled (sent : List Made) (written : List UInt8) : Account where
  flushed := sent.flatMap (·.bytes)
  written
  published := sent.filterMap (·.id)
  sent := sent.length

namespace Sender

variable (config) in
/-- Where the events stand at the point at which a sender is suspended: `sent` are sent, and
`waiting` are not settled, or dropped when the sender has returned. -/
inductive Standing (s : Sender) (a : Account) (sent waiting : List Made) : Prop where
  | selecting (hphase : s.phase = .selecting) (ha : a = settled sent [])
      (hholds : s.batch.Holds waiting) (hnew : ∀ e ∈ waiting, e.attempted = false)
      (hframe : waiting ≠ [] → s.isFrame config = false)
  | flushing (write : Write) (written : List UInt8) (hphase : s.phase = .flushing write .batch)
      (ha : a = settled sent written) (hholds : s.batch.Holds waiting)
      (hbytes : written ++ write.fragments.flatten = s.batch.bytes)
  | publishing (published : List Uuid) (hphase : s.phase = .publishing .batch)
      (ha : a = { settled sent [] with published }) (hwaiting : waiting = [])
      (hids : published ++ s.batch.correlations.map (·.id) = sent.filterMap (·.id))
  | writingFrame (write : Write) (frame : Made) (written : List UInt8)
      (hphase : s.phase = .writingFrame write) (ha : a = settled sent written)
      (hholds : s.batch.Holds []) (hwaiting : waiting = [frame]) (hid : frame.id = none)
      (hbytes : written ++ write.fragments.flatten = frame.bytes)
  | returned (result : Except Failure Unit) (written : List UInt8)
      (hphase : s.phase = .returned result)
      (ha : a = { settled sent written with
        dropped := waiting.length, localDropped := waiting.countP (!·.attempted) })

section Continue

variable {s : Sender} {sent waiting : List Made}

theorem countP_of_new (hnew : ∀ e ∈ waiting, e.attempted = false) :
    waiting.countP (!·.attempted) = waiting.length := by
  rw [List.countP_eq_length]
  exact fun e he => by simp [hnew e he]

theorem standing_leave (hholds : s.batch.Holds waiting)
    (hnew : ∀ e ∈ waiting, e.attempted = false) :
    Standing config s.leave.1 ((settled sent []).recordAll s.leave.2) sent waiting := by
  refine .returned (.ok ()) [] rfl ?_
  -- no write was attempted, so all that wait are dropped locally
  rw [leave, dropBatch, hholds.events, countP_of_new hnew]
  split
  · rw [Account.recordAll_localDrop]
    simp [settled]
  · next hzero => simp [settled, Nat.eq_zero_of_not_pos hzero]

theorem standing_endTick (hholds : s.batch.Holds waiting)
    (hnew : ∀ e ∈ waiting, e.attempted = false)
    (hframe : waiting ≠ [] → s.isFrame config = false) :
    Standing config (s.endTick config).1 ((settled sent []).recordAll (s.endTick config).2) sent
      waiting := by
  rw [endTick]
  split
  · exact standing_leave hholds hnew
  · exact .selecting rfl rfl hholds hnew hframe

/-- A full batch is written. -/
theorem standing_flush (now : Instant) (hholds : s.batch.Holds waiting)
    (hne : s.batch.bytes ≠ []) :
    Standing config (s.flush config now .batch).1
      ((settled sent []).recordAll (s.flush config now .batch).2) sent waiting := by
  obtain ⟨write, hstart, hflatten⟩ := Write.start_of_ne_nil config now hne
  rw [flush, if_neg (by simpa using hne), hstart]
  exact .flushing write [] rfl rfl hholds hflatten

/-- An event has joined the batch. -/
theorem standing_append (now : Instant) (hholds : s.batch.Holds waiting)
    (hne : s.batch.bytes ≠ []) (hnew : ∀ e ∈ waiting, e.attempted = false)
    (hframe : waiting ≠ [] → s.isFrame config = false) :
    Standing config (s.append config now).1 ((settled sent []).recordAll (s.append config now).2)
      sent waiting := by
  rw [append]
  split
  · -- the batch is over its limit, and is dropped before any write
    refine .returned _ [] rfl ?_
    rw [overflow, Account.recordAll_localDrop, hholds.events, countP_of_new hnew]
    simp [settled]
  · split
    · exact standing_flush now hholds hne
    · exact standing_endTick hholds hnew hframe

end Continue

/-! ## What a step does to the events -/

section Step

variable {s s' : Sender} {a : Account} {sent waiting : List Made} {w : World} {act : SenderAct}
  {out : List Effect}

theorem Standing.of_selecting (h : Standing config s a sent waiting)
    (hphase : s.phase = .selecting) :
    a = settled sent [] ∧ s.batch.Holds waiting ∧ (∀ e ∈ waiting, e.attempted = false) ∧
      (waiting ≠ [] → s.isFrame config = false) := by
  cases h with
  | selecting _ ha hholds hnew hframe => exact ⟨ha, hholds, hnew, hframe⟩
  | flushing _ _ hphase' | publishing _ hphase' | writingFrame _ _ _ hphase'
  | returned _ _ hphase' => cases hphase.symm.trans hphase'

theorem Standing.of_flushing {write : Write} {next : AfterFlush}
    (h : Standing config s a sent waiting) (hphase : s.phase = .flushing write next) :
    next = .batch ∧ s.batch.Holds waiting ∧ ∃ written, a = settled sent written ∧
      written ++ write.fragments.flatten = s.batch.bytes := by
  cases h with
  | flushing _ written hphase' ha hholds hbytes =>
    cases hphase.symm.trans hphase'
    exact ⟨rfl, hholds, written, ha, hbytes⟩
  | selecting hphase' | publishing _ hphase' | writingFrame _ _ _ hphase'
  | returned _ _ hphase' => cases hphase.symm.trans hphase'

theorem Standing.of_publishing {next : AfterFlush} (h : Standing config s a sent waiting)
    (hphase : s.phase = .publishing next) :
    next = .batch ∧ waiting = [] ∧ ∃ published, a = { settled sent [] with published } ∧
      published ++ s.batch.correlations.map (·.id) = sent.filterMap (·.id) := by
  cases h with
  | publishing published hphase' ha hwaiting hids =>
    cases hphase.symm.trans hphase'
    exact ⟨rfl, hwaiting, published, ha, hids⟩
  | selecting hphase' | flushing _ _ hphase' | writingFrame _ _ _ hphase'
  | returned _ _ hphase' => cases hphase.symm.trans hphase'

theorem Standing.of_writingFrame {write : Write} (h : Standing config s a sent waiting)
    (hphase : s.phase = .writingFrame write) :
    s.batch.Holds [] ∧ ∃ frame written, waiting = [frame] ∧ frame.id = none ∧
      a = settled sent written ∧ written ++ write.fragments.flatten = frame.bytes := by
  cases h with
  | writingFrame _ frame written hphase' ha hholds hwaiting hid hbytes =>
    cases hphase.symm.trans hphase'
    exact ⟨hholds, frame, written, hwaiting, hid, ha, hbytes⟩
  | selecting hphase' | flushing _ _ hphase' | publishing _ hphase'
  | returned _ _ hphase' => cases hphase.symm.trans hphase'

/-- An attempt settles nothing. -/
theorem settled_attempt (sent : List Made) (written : List UInt8) :
    settled (sent.map Made.attempt) written = settled sent written := by
  simp only [settled, List.flatMap_map, List.filterMap_map, List.length_map]
  rfl

theorem holds_attempt {batch : OutgoingBatch} (h : batch.Holds waiting) :
    batch.Holds (waiting.map Made.attempt) where
  bytes := by
    rw [h.bytes, List.flatMap_map]
    rfl
  ids := by
    rw [h.ids, List.filterMap_map]
    rfl
  events := h.events.trans (List.length_map _).symm

theorem countP_attempt (events : List Made) :
    (events.map Made.attempt).countP (!·.attempted) = 0 := by
  rw [List.countP_eq_zero]
  intro e he
  obtain ⟨e', -, rfl⟩ := List.mem_map.mp he
  simp [Made.attempt]

/-- The batch with one more event. -/
theorem holds_push (hholds : s.batch.Holds waiting) (utc : OffsetDateTime) (id : Uuid)
    (now : Instant) :
    (s.push (s.eventBytes P participant config utc id) (s.eventId config id) now).Holds
      (waiting ++ [.ofTick P participant config s.eventCount utc id false]) where
  bytes := by
    rw [push, hholds.bytes, List.flatMap_append, List.flatMap_singleton]
    rfl
  ids := by
    rw [push, List.map_append, hholds.ids, List.filterMap_append]
    simp only [Made.ofTick, eventId]
    split <;> rfl
  events := by rw [push, hholds.events, List.length_append]; rfl

/-- **A tick**: its event joins the batch, or is a frame that is written on its own. -/
theorem standing_dispatch (hholds : s.batch.Holds waiting)
    (hnew : ∀ e ∈ waiting, e.attempted = false)
    (hframe : waiting ≠ [] → s.isFrame config = false)
    (hcount : s.eventCount.toNat + 1 < 2 ^ 32) (utc : OffsetDateTime) (id : Uuid)
    (now : Instant) :
    Standing config (s.dispatch P participant config now utc id).1
      ((settled sent []).recordAll (s.dispatch P participant config now utc id).2) sent
      (waiting ++ [.ofTick P participant config s.eventCount utc id false]) := by
  have hne := Made.ofTick_bytes_ne_nil P participant config s.eventCount utc id false
  rw [dispatch]
  split
  · next hf =>
    -- the batch is empty, since the frames come first
    obtain rfl : waiting = [] := by
      by_contra hwaiting
      rw [hframe hwaiting] at hf
      cases hf
    obtain ⟨write, hstart, hflatten⟩ := Write.start_of_ne_nil config now hne
    have hempty : (s.ticked P participant config now utc id).batch = s.batch := if_pos hf
    have hkind : invalidKind config s.eventCount = some .oversizedFrame := of_decide_eq_true hf
    have hid : (Made.ofTick P participant config s.eventCount utc id false).id = none := by
      simp [Made.ofTick, hkind]
    have hbytes : s.eventBytes P participant config utc id =
        (Made.ofTick P participant config s.eventCount utc id false).bytes := rfl
    rw [flush, hempty, hholds.bytes, hbytes]
    simp only [List.flatMap_nil, List.isEmpty_nil, if_true, afterFlush, hstart]
    exact .writingFrame write _ [] rfl rfl (hempty ▸ hholds) rfl hid hflatten
  · next hf =>
    have hbatch : (s.ticked P participant config now utc id).batch =
        s.push (s.eventBytes P participant config utc id) (s.eventId config id) now := if_neg hf
    refine standing_append now ?_ ?_ ?_ ?_
    · rw [hbatch]
      exact holds_push hholds utc id now
    · rw [hbatch]
      exact List.append_ne_nil_of_right_ne_nil _ hne
    · intro e he
      rcases List.mem_append.mp he with he | he
      · exact hnew e he
      · rw [List.mem_singleton.mp he]
        rfl
    · -- the next event is no frame either
      intro _
      rw [← Bool.not_eq_true]
      intro hlater
      refine hf (decide_eq_true (invalidKind_succ hcount (of_decide_eq_true hlater)))

/-- **A write of the batch**: it goes on, its events are sent, or they are dropped. -/
theorem standing_flushOutcome {write : Write} {written bytes : List UInt8} {wact : WriteAct}
    {outcome : WriteOutcome} (hholds : s.batch.Holds waiting)
    (hbytes : written ++ write.fragments.flatten = s.batch.bytes)
    (hwrite : write.step config w.now wact = some (outcome, bytes)) :
    ∃ sent' waiting', (sent ++ waiting).map Made.attempt = sent' ++ waiting' ∧
      Standing config (s.flushOutcome .batch outcome).1
        ((settled sent written).recordAll (.write bytes ::
          s.delivered write.written bytes.length ++ (s.flushOutcome .batch outcome).2))
        sent' waiting' := by
  rw [List.cons_append, Account.recordAll_cons, Account.recordAll_append,
    Account.recordAll_delivered]
  cases outcome with
  | pending write' =>
    refine ⟨sent.map .attempt, waiting.map .attempt, List.map_append, .flushing write'
      (written ++ bytes) rfl ?_ (holds_attempt hholds) ?_⟩
    · rw [settled_attempt]
      rfl
    · rw [List.append_assoc, Write.step_pending hwrite, hbytes]
      rfl
  | done =>
    -- the whole batch is written, and its ids wait for the ledger
    obtain ⟨rfl, hnil⟩ := Write.step_done hwrite
    rw [hnil, List.append_nil] at hbytes
    refine ⟨(sent ++ waiting).map .attempt, [], (List.append_nil _).symm,
      .publishing (sent.filterMap (·.id)) rfl ?_ rfl ?_⟩
    · rw [settled_attempt]
      simp [flushOutcome, settled, Account.record, hbytes, hholds.bytes, hholds.events]
    · have hids : s.batch.correlations.map (·.id) = waiting.filterMap (·.id) := hholds.ids
      rw [List.filterMap_map]
      simp only [flushOutcome, hids, ← List.filterMap_append]
      rfl
  | failed failure =>
    -- a write was attempted, so none of the events is dropped locally
    refine ⟨sent.map .attempt, waiting.map .attempt, List.map_append,
      .returned _ (written ++ bytes) rfl ?_⟩
    rw [settled_attempt, countP_attempt, List.length_map]
    simp [flushOutcome, Account.recordAll_writeFailure, settled, Account.record, hholds.events]

/-- **A write of a frame**: it goes on, the frame is sent, or it is dropped. -/
theorem standing_frameOutcome {frame : Made} {write : Write} {written bytes : List UInt8}
    {wact : WriteAct} {outcome : WriteOutcome} (hholds : s.batch.Holds [])
    (hid : frame.id = none) (hbytes : written ++ write.fragments.flatten = frame.bytes)
    (hwrite : write.step config w.now wact = some (outcome, bytes)) :
    ∃ sent' waiting', (sent ++ [frame]).map Made.attempt = sent' ++ waiting' ∧
      Standing config (s.frameOutcome config outcome).1
        ((settled sent written).recordAll (.write bytes :: (s.frameOutcome config outcome).2))
        sent' waiting' := by
  rw [Account.recordAll_cons]
  cases outcome with
  | pending write' =>
    refine ⟨sent.map .attempt, [frame.attempt], List.map_append, .writingFrame write' frame.attempt
      (written ++ bytes) rfl ?_ hholds rfl hid ?_⟩
    · rw [settled_attempt]
      rfl
    · rw [List.append_assoc, Write.step_pending hwrite, hbytes]
      rfl
  | done =>
    -- a frame is counted at once, and has no id for the ledger
    obtain ⟨rfl, hnil⟩ := Write.step_done hwrite
    rw [hnil, List.append_nil] at hbytes
    refine ⟨(sent ++ [frame]).map .attempt, [], (List.append_nil _).symm, ?_⟩
    have hsettled : ((settled sent written).record (.write [])).record (.add .sentMessages 1) =
        settled ((sent ++ [frame]).map .attempt) [] := by
      rw [settled_attempt]
      simp [settled, Account.record, hbytes, hid]
    simp only [frameOutcome, Account.recordAll_cons, hsettled]
    exact standing_endTick hholds (by simp) (by simp)
  | failed failure =>
    refine ⟨sent.map .attempt, [frame.attempt], List.map_append,
      .returned _ (written ++ bytes) rfl ?_⟩
    rw [settled_attempt]
    simp [frameOutcome, Account.recordAll_writeFailure, settled, Account.record, Made.attempt]

variable (P participant config) in
/-- The counter is that of the ticks, and the events made are in their places. -/
def Reconciled (s : Sender) (a : Account) (acts : List SenderAct) : Prop :=
  s.eventCount = countAfter 0 acts ∧ ∃ sent waiting,
    made P participant config 0 acts = sent ++ waiting ∧ Standing config s a sent waiting

theorem eventCount_step (h : s.step P participant config w act = some (s', out)) :
    s'.eventCount = s.eventCount + if act.isTick then 1 else 0 := by
  rcases step_cases h with ⟨utc, id, rfl, -, effects, -, hkeeps⟩ | ⟨hact, hidle⟩
  · exact hkeeps.eventCount
  · have htick : act.isTick = false := by
      cases act with
      | tick utc id => exact absurd rfl (hact utc id)
      | _ => rfl
    rw [hidle.2.2.1, htick]
    exact (UInt32.add_zero _).symm

/-- **Each step keeps the events in their places.** -/
theorem standing_step {acts : List SenderAct} (hs : Standing config s a sent waiting)
    (hmade : made P participant config 0 acts = sent ++ waiting)
    (hcount : s.eventCount = countAfter 0 acts)
    (hticks : (acts ++ [act]).countP (·.isTick) < 2 ^ 32)
    (h : s.step P participant config w act = some (s', out)) :
    ∃ sent' waiting', made P participant config 0 (acts ++ [act]) = sent' ++ waiting' ∧
      Standing config s' (a.recordAll out) sent' waiting' := by
  cases steps_of_step h with
  | tick utc id hphase hdue hp =>
    obtain ⟨rfl, rfl⟩ := Prod.mk.inj hp
    obtain ⟨rfl, hholds, hnew, hframe⟩ := hs.of_selecting hphase
    -- the counter is that of the ticks before this one, so it does not wrap
    have hbound : s.eventCount.toNat + 1 < 2 ^ 32 := by
      rw [List.countP_append] at hticks
      rw [hcount, toNat_countAfter (by omega)]
      exact hticks
    refine ⟨sent, _, ?_, standing_dispatch hholds hnew hframe hbound utc id w.now⟩
    rw [made_concat_tick, hmade, hcount, List.append_assoc]
  | stopped hphase _ hp | deadline hphase _ hp =>
    obtain ⟨rfl, rfl⟩ := Prod.mk.inj hp
    obtain ⟨rfl, hholds, hnew, -⟩ := hs.of_selecting hphase
    exact ⟨sent, waiting, (made_concat_other rfl rfl).trans hmade, standing_leave hholds hnew⟩
  | flush act write next outcome bytes hphase hwrite hp =>
    obtain ⟨rfl, rfl⟩ := Prod.mk.inj hp
    obtain ⟨rfl, hholds, written, rfl, hbytes⟩ := hs.of_flushing hphase
    rw [made_concat_write, hmade]
    exact standing_flushOutcome hholds hbytes hwrite
  | frame act write outcome bytes hphase hwrite hp =>
    obtain ⟨rfl, rfl⟩ := Prod.mk.inj hp
    obtain ⟨hholds, frame, written, rfl, hid, rfl, hbytes⟩ := hs.of_writingFrame hphase
    rw [made_concat_write, hmade]
    exact standing_frameOutcome hholds hid hbytes hwrite
  | publish next hphase hp =>
    obtain ⟨rfl, rfl⟩ := Prod.mk.inj hp
    obtain ⟨rfl, rfl, published, rfl, hids⟩ := hs.of_publishing hphase
    refine ⟨sent, [], (made_concat_other rfl rfl).trans hmade, ?_⟩
    -- with the ids of the batch the ledger has all that are sent
    have hsettled : ({ settled sent [] with published } : Account).recordAll
        (s.publish participant) = settled sent [] := by
      rw [Account.recordAll_publish, hids]
      rfl
    rw [Account.recordAll_append, hsettled]
    exact standing_endTick ⟨rfl, rfl, rfl⟩ (by simp) (by simp)

theorem step_ofSender (h : s.step P participant config w act = some (s', out)) :
    ∀ e ∈ out, e.OfSender := by
  have hsends : ∀ {e : Effect}, e.Sends → e.OfSender := fun {e} he => by
    cases e with
    | generate id => trivial
    | _ => exact he
  rcases step_cases h with ⟨utc, id, -, -, effects, rfl, hkeeps⟩ | ⟨-, hidle⟩
  · intro e he
    rcases List.mem_cons.mp he with rfl | he
    · trivial
    · exact hsends (hkeeps.sends e he)
  · exact fun e he => hsends (hidle.2.2.2.2 e he)

end Step

variable (P participant config) in
/-- `send_positions` as a component of a run. -/
def component : Component World Sender SenderAct Effect where
  step w s := s.step P participant config w

variable (P participant config) in
/-- What holds of a run up to now: until the counter wraps, the events are in their places. -/
structure InOrder (t : Sender × List Effect) (inputs : List (World × SenderAct)) : Prop where
  reconciled : (inputs.map (·.2)).countP (·.isTick) < 2 ^ 32 →
    Reconciled P participant config t.1 (account t.2) (inputs.map (·.2))
  ofSender : ∀ e ∈ t.2, e.OfSender

theorem inOrder_step {t u : Sender × List Effect} {before : List (World × SenderAct)}
    {i : World × SenderAct} (ht : InOrder P participant config t before)
    (h : (component P participant config).logged.step t i = some u) :
    InOrder P participant config u (before ++ [i]) := by
  obtain ⟨out, hstep, hlog⟩ := Component.logged_step.mp h
  refine ⟨fun hticks => ?_, fun e he => ?_⟩
  · rw [List.map_append] at hticks ⊢
    have hbefore : (before.map (·.2)).countP (·.isTick) < 2 ^ 32 := by
      rw [List.countP_append] at hticks
      omega
    obtain ⟨hcount, sent, waiting, hmade, hstanding⟩ := ht.reconciled hbefore
    obtain ⟨sent', waiting', hmade', hstanding'⟩ :=
      standing_step hstanding hmade hcount hticks hstep
    refine ⟨?_, sent', waiting', hmade', ?_⟩
    · rw [eventCount_step hstep, hcount, List.map_singleton, countAfter_concat]
    · rw [hlog, account_append]
      exact hstanding'
  · rw [hlog] at he
    rcases List.mem_append.mp he with he | he
    · exact ht.ofSender e he
    · exact step_ofSender hstep e he

/-- **The books balance when `send_positions` returns.** The events made are those sent, followed
by those dropped. The bytes written by the writes that are done are the XML of the events sent, in
order; the ids in the ledger are theirs; and the events dropped are counted as dropped, and as
dropped locally if no write of them was attempted. -/
theorem books_balance {created : Instant} {interval : Duration}
    {inputs : List (World × SenderAct)} {t : Sender} {log : List Effect}
    {result : Except Failure Unit}
    (h : (component P participant config).logged.exec (Sender.new created interval, []) inputs =
      some (t, log))
    (hticks : (inputs.map (·.2)).countP (·.isTick) < 2 ^ 32)
    (hreturned : t.phase = .returned result) :
    (∀ w, (account log).Explains w (w.applyAll log)) ∧
    ∃ sent dropped, made P participant config 0 (inputs.map (·.2)) = sent ++ dropped ∧
      (account log).sent = sent.length ∧
      (account log).flushed = sent.flatMap (·.bytes) ∧
      (account log).published = sent.filterMap (·.id) ∧
      (((sent ++ dropped).filterMap (·.id)).Nodup → (account log).published.Nodup) ∧
      (account log).dropped = dropped.length ∧
      (account log).localDropped = dropped.countP (!·.attempted) := by
  have hstart : InOrder P participant config (Sender.new created interval, []) [] :=
    ⟨fun _ => ⟨rfl, [], [], rfl, .selecting rfl rfl ⟨rfl, rfl, rfl⟩ (by simp) (by simp)⟩, by simp⟩
  obtain ⟨hreconciled, hofSender⟩ :=
    Machine.exec_invariant_inputs (fun _ _ _ _ => inOrder_step) hstart h
  -- what was sent stays so, and what waits when the sender returns is dropped
  obtain ⟨-, sent, dropped, hmade, hstanding⟩ := hreconciled hticks
  refine ⟨fun w => ?_, sent, dropped, hmade, ?_⟩
  · exact World.applyAll_account ⟨rfl, rfl, rfl, fun id => by simp⟩ hofSender
  cases hstanding with
  | returned _ written _ ha =>
    simp only at ha
    rw [ha]
    refine ⟨rfl, rfl, rfl, fun hnodup => ?_, rfl, rfl⟩
    rw [List.filterMap_append] at hnodup
    exact (List.nodup_append.mp hnodup).1
  | selecting hphase | flushing _ _ hphase | publishing _ hphase
  | writingFrame _ _ _ hphase => cases hreturned.symm.trans hphase

/-! ## A batch of two events, and one event more -/

namespace Paired

open Session.Pending

variable {first second third : List UInt8}

/-- The sender at a point of a batch of two events, the first made at 30 s and the second at
60 s. -/
def sender (first second : List UInt8) (phase : SenderPhase) : Sender where
  interval := 30000000000
  nextTick := 90000000000
  batch := ⟨first ++ second, [⟨7, 30000000000, first.length⟩,
    ⟨8, 60000000000, first.length + second.length⟩], 2⟩
  eventCount := 2
  phase

/-- The sender with a third event, made at 90 s. -/
def rest (third : List UInt8) (phase : SenderPhase) : Sender where
  interval := 30000000000
  nextTick := 120000000000
  batch := ⟨third, [⟨9, 90000000000, third.length⟩], 1⟩
  eventCount := 3
  phase

/-- The ticks of two events, and the write of both. -/
def writing (n : ℕ) : List (World × SenderAct) :=
  [(world 30000000000, .tick 0 7), (world 60000000000, .tick 0 8),
    (world 60000000000, .write (.wrote n)), (world 60000000000, .write .flushed)]

/-- Both events are published, and the third waits when the run ends. -/
def leaving : List (World × SenderAct) :=
  [(world 60000000000, .published), (world 90000000000, .tick 0 9),
    (world 120000000000, .deadline)]

theorem step_first (hfirst : asBytes (positionXml P peer pairs 0 7) = first)
    (hlimit : first.length ≤ 8 * 1024 * 1024) :
    (Sender.new 0 30000000000).step P peer pairs (world 30000000000) (.tick 0 7) =
      some (holding first, [.generate (some 7)]) :=
  congrArg some (tick_of_room rfl rfl hfirst (by simpa [Sender.new] using hlimit) (by decide))

theorem step_second (hsecond : asBytes (positionXml P peer pairs 0 8) = second)
    (hlimit : first.length + second.length ≤ 8 * 1024 * 1024) (hne : second ≠ []) :
    (holding first).step P peer pairs (world 60000000000) (.tick 0 8) =
      some (sender first second (.flushing ⟨[first ++ second], 0, 60000000000⟩ .batch),
        [.generate (some 8)]) := by
  have hfull : (holding first).tick P peer pairs 60000000000 0 8 =
      (sender first second (.flushing ⟨[first ++ second], 0, 60000000000⟩ .batch),
        [.generate (some 8)]) := by
    refine (tick_of_full rfl rfl hsecond hlimit le_rfl hne).trans ?_
    simp [sender, holding, Sender.new, withPosition, push, nextTimeout]
  exact congrArg some hfull

theorem step_wrote (hfirst : first ≠ []) (hsecond : second ≠ []) :
    (sender first second (.flushing ⟨[first ++ second], 0, 60000000000⟩ .batch)).step P peer pairs
        (world 60000000000) (.write (.wrote (first ++ second).length)) =
      some (sender first second (.flushing ⟨[[]], (first ++ second).length, 60000000000⟩ .batch),
        [.write (first ++ second), .deliver 7, .deliver 8]) := by
  have hpos := List.length_pos_of_ne_nil hfirst
  have hpos' := List.length_pos_of_ne_nil hsecond
  simp [Sender.step, Write.step, sender, flushOutcome, delivered, hpos, hpos']

theorem step_flushed (first second : List UInt8) :
    (sender first second (.flushing ⟨[[]], (first ++ second).length, 60000000000⟩ .batch)).step P
        peer pairs (world 60000000000) (.write .flushed) =
      some (sender first second (.publishing .batch), [.write [], .add .sentMessages 2]) := by
  simp [Sender.step, Write.step, sender, flushOutcome, delivered]

/-- The sender once both events are published. -/
def published : Sender := ⟨30000000000, 90000000000, {}, 2, .selecting⟩

theorem step_third (hthird : asBytes (positionXml P peer pairs 0 9) = third)
    (hlimit : third.length ≤ 8 * 1024 * 1024) :
    published.step P peer pairs (world 90000000000) (.tick 0 9) =
      some (rest third .selecting, [.generate (some 9)]) := by
  have hroom : published.tick P peer pairs 90000000000 0 9 =
      (rest third .selecting, [.generate (some 9)]) := by
    refine (tick_of_room rfl rfl hthird (by simpa [published] using hlimit)
      (show 0 + 1 < max 2 1 by decide)).trans ?_
    simp [published, rest, withPosition, push, nextTimeout]
  exact congrArg some hroom

/-- What the sender does for three events. -/
def log (first second : List UInt8) : List Effect :=
  [.generate (some 7), .generate (some 8), .write (first ++ second), .deliver 7, .deliver 8,
    .write [], .add .sentMessages 2, .publish 7 "peer" 30000000000,
    .publish 8 "peer" 60000000000, .generate (some 9)] ++ recordLocalDrop 1

theorem exec_leaving (hfirst : asBytes (positionXml P peer pairs 0 7) = first)
    (hsecond : asBytes (positionXml P peer pairs 0 8) = second)
    (hthird : asBytes (positionXml P peer pairs 0 9) = third)
    (hlimit : first.length + second.length + third.length ≤ 8 * 1024 * 1024) :
    (component P peer pairs).logged.exec (Sender.new 0 30000000000, [])
        (writing (first ++ second).length ++ leaving) =
      some (rest third (.returned (.ok ())), log first second) := by
  have hstep : ∀ {s s' : Sender} {before out : List Effect} {w : World} {act : SenderAct},
      s.step P peer pairs w act = some (s', out) →
      (component P peer pairs).logged.step (s, before) (w, act) = some (s', before ++ out) :=
    fun h => Component.logged_step.mpr ⟨_, h, rfl⟩
  have hne : first ≠ [] := hfirst ▸ asBytes_toXml_ne_nil _
  have hne' : second ≠ [] := hsecond ▸ asBytes_toXml_ne_nil _
  refine Machine.exec_step (hstep (step_first hfirst (by omega))) (Machine.exec_step
    (hstep (step_second hsecond (by omega) hne')) (Machine.exec_step (hstep (step_wrote hne hne'))
      (Machine.exec_step (hstep (step_flushed first second)) (Machine.exec_step (hstep rfl)
        (Machine.exec_step (hstep (step_third hthird (by omega)))
          (Machine.exec_step (hstep rfl) rfl))))))

theorem length_positionXml (id : Uuid) :
    (asBytes (positionXml Reference.platform peer pairs 0 id)).length ≤ 8192 :=
  (Reference.length_toXml_le _).trans (show 4 * ((escape "tak-bench-peer").toList.length +
    (escape "peer").toList.length + 600) ≤ 8192 by decide)

/-- Three events of the reference platform. -/
theorem exists_leaving : ∃ first second third,
    (component Reference.platform peer pairs).logged.exec (Sender.new 0 30000000000, [])
        (writing (first ++ second).length ++ leaving) =
      some (rest third (.returned (.ok ())), log first second) :=
  ⟨_, _, _, exec_leaving rfl rfl rfl ((Nat.add_le_add (Nat.add_le_add (length_positionXml 7)
    (length_positionXml 8)) (length_positionXml 9)).trans (by decide))⟩

end Paired

open Session.Pending Paired in
/-- The books of a sender that writes and publishes two events and leaves one in its batch. -/
theorem books_balance_pending :
    ∃ inputs t log sent dropped,
      (component Reference.platform peer pairs).logged.exec (Sender.new 0 30000000000, []) inputs =
        some (t, log) ∧
      made Reference.platform peer pairs 0 (inputs.map (·.2)) = sent ++ dropped ∧
      sent.length = 2 ∧ (account log).published = [7, 8] ∧ dropped.length = 1 ∧
      dropped.countP (!·.attempted) = 1 := by
  obtain ⟨first, second, third, hexec⟩ := exists_leaving
  obtain ⟨-, sent, dropped, hmade, hsent, -, hpublished, -, hdropped, hlocal⟩ :=
    books_balance hexec (show 3 < 2 ^ 32 by decide) rfl
  exact ⟨_, _, _, sent, dropped, hexec, hmade, hsent.symm, rfl, hdropped.symm, hlocal.symm⟩

end Sender

end TakBench
