import TakBench.Config
import TakBench.Library.Machine
import TakBench.Scenario.Fragmentation
import TakBench.Scenario.World

/-!
# The sender

`send_positions` makes one event at each tick of its interval, collects events in a batch and
writes a full batch in fragments. It runs between its suspension points in one step: a tick, the
stop signal or the deadline while it selects, progress or failure of a write, and the lock of the
ledger.

## Main definitions

* `positionEvent`, `positionXml`, `invalidKind`, `invalidOrPosition`
* `Write`, `Write.step`: a fragmented write
* `Sender`, `Sender.step`

## Main results

* `Sender.Keeps`: between two ticks a sender only counts
* `Sender.steps_of_step`: a step starts where the sender is suspended
* `Sender.step_cases`: a step is a tick, which makes one event, or makes none
-/

namespace TakBench

open Utf8

variable (P : Platform) (participant : ParticipantConfig) (config : AppConfig)

/-! ## Events -/

/-- The event of `position_xml`. -/
def positionEvent (now : OffsetDateTime) (correlationId : Uuid) : PositionEvent :=
  let secs := Duration.asSecs config.run.gpsInterval
  let staleSecs : ℤ := if secs < 2 ^ 63 then secs else 30
  { uid := "tak-bench-" ++ participant.id
    callsign := participant.id
    latitude := .finite (-235505 / 10000)
    longitude := .finite (-466333 / 10000)
    altitudeM := .finite 760
    courseDeg := .finite 0
    speedMps := .finite 0
    time := now
    -- the product is a signed 64-bit number, which wraps in a release build
    stale := now + (staleSecs * 2).bmod (2 ^ 64) * 1000000000
    correlationId }

/-- `position_xml`. -/
def positionXml (now : OffsetDateTime) (correlationId : Uuid) : String :=
  (positionEvent participant config now correlationId).toXml P

/-- `invalid_kind`. -/
def invalidKind (count : UInt32) : Option InvalidEventKind :=
  if !config.scenario.invalid.enabled || config.scenario.invalid.maxEvents.getD 0 ≤ count then none
  else some (config.scenario.invalid.kind.getD .malformedXml)

/-- The bytes of the frame that is over the limit of a decoder. -/
def oversizedFrame : List UInt8 :=
  asBytes "<event>" ++ List.replicate (8 * 1024 * 1024 + 1) 120 ++ asBytes "</event>"

/-- `invalid_or_position`: the bytes of an invalid event. -/
def invalidOrPosition (count : UInt32) : Option (List UInt8) :=
  (invalidKind config count).map fun
    | .malformedXml => asBytes "<event"
    | .unterminatedXml => asBytes "<event uid=\"invalid\">"
    | .oversizedFrame => oversizedFrame
    | .invalidCoordinates => asBytes "<event><point lat=\"nan\" lon=\"999\"/></event>"
    | .invalidTime => asBytes "<event time=\"not-a-time\"></event>"

/-! ## Writing -/

/-- A write in progress: the rest of the current fragment and the fragments after it, the bytes
written so far, and the start of the current fragment. -/
structure Write where
  fragments : List (List UInt8)
  written : ℕ
  since : Instant
  deriving DecidableEq

/-- What a write in progress sees. -/
inductive WriteAct where
  /-- the transport takes `n` bytes of the current fragment -/
  | wrote (n : ℕ)
  /-- the current fragment is written and flushed -/
  | flushed
  | failed (context : String) (isInvalidData : Bool)
  | timedOut
  deriving DecidableEq

/-- Does the write end in an error? -/
def WriteAct.fails : WriteAct → Bool
  | .failed _ _ | .timedOut => true
  | .wrote _ | .flushed => false

/-- How a write goes on. -/
inductive WriteOutcome where
  | pending (write : Write)
  | done
  | failed (failure : Failure)
  deriving DecidableEq

/-- Did the write end in an error? -/
def WriteOutcome.isFailed : WriteOutcome → Bool
  | .failed _ => true
  | .pending _ | .done => false

/-- `write_fragmented` up to its first suspension. -/
def Write.start (bytes : List UInt8) (now : Instant) : WriteOutcome :=
  match TakBench.fragments config.scenario.fragmentation.chunkSizes bytes with
  | [] => .done
  | fragments => .pending ⟨fragments, 0, now⟩

/-- A step of a write, and the bytes the transport takes in it. -/
def Write.step (now : Instant) (write : Write) : WriteAct → Option (WriteOutcome × List UInt8)
  | .wrote n =>
    match write.fragments with
    | [] => none
    | current :: rest =>
      if 0 < n ∧ n ≤ current.length then
        some (.pending ⟨current.drop n :: rest, write.written + n, write.since⟩, current.take n)
      else none
  | .flushed =>
    match write.fragments with
    | [] :: [] => some (.done, [])
    | [] :: rest => some (.pending ⟨rest, write.written, now⟩, [])
    | _ => none
  | .failed context isInvalidData =>
    some (.failed [.message context, .io isInvalidData], [])
  | .timedOut =>
    if write.since + config.timeouts.write ≤ now then
      some (.failed [.message "write timed out", .elapsed], [])
    else none

variable {config}

theorem Write.start_isFailed (bytes : List UInt8) (now : Instant) :
    (Write.start config bytes now).isFailed = false := by
  rw [start]
  split <;> rfl

theorem Write.step_isFailed {now : Instant} {write : Write} {act : WriteAct}
    {outcome : WriteOutcome} {bytes : List UInt8}
    (h : write.step config now act = some (outcome, bytes)) : outcome.isFailed = act.fails := by
  cases act <;> simp only [step] at h
  · split at h
    · cases h
    · simp only [Option.ite_none_right_eq_some, Option.some.injEq, Prod.mk.injEq] at h
      exact h.2.1 ▸ rfl
  · split at h
    · exact (Prod.mk.inj (Option.some.inj h)).1 ▸ rfl
    · exact (Prod.mk.inj (Option.some.inj h)).1 ▸ rfl
    · cases h
  · exact (Prod.mk.inj (Option.some.inj h)).1 ▸ rfl
  · simp only [Option.ite_none_right_eq_some, Option.some.injEq, Prod.mk.injEq] at h
    exact h.2.1 ▸ rfl

variable (config)

/-! ## The state of a sender -/

/-- A position event of the batch, with the length of the batch up to its end. -/
structure Correlation where
  id : Uuid
  sentAt : Instant
  endsAt : ℕ
  deriving DecidableEq

structure OutgoingBatch where
  bytes : List UInt8 := []
  correlations : List Correlation := []
  events : ℕ := 0
  deriving DecidableEq

/-- What follows a flush: the rest of the tick, or an oversized frame before it. -/
inductive AfterFlush where
  | batch
  | frame (bytes : List UInt8)
  deriving DecidableEq

inductive SenderPhase where
  | selecting
  | flushing (write : Write) (next : AfterFlush)
  /-- waiting for the lock of the ledger -/
  | publishing (next : AfterFlush)
  | writingFrame (write : Write)
  | returned (result : Except Failure Unit)

structure Sender where
  interval : Duration
  /-- when the ticker fires next -/
  nextTick : Instant
  batch : OutgoingBatch
  eventCount : UInt32
  phase : SenderPhase

/-- What a sender sees. -/
inductive SenderAct where
  /-- the ticker fires, with the wall clock and the id drawn -/
  | tick (utc : OffsetDateTime) (id : Uuid)
  | stopped
  | deadline
  | write (act : WriteAct)
  | published

/-- `MissedTickBehavior::Skip`: when the ticker fires next, after a tick that was due at `timeout`.
A tick that is more than five milliseconds late skips the ticks that it has missed. -/
def nextTimeout (timeout now : Instant) (period : Duration) : Instant :=
  if 5000000 < now - timeout then now + period - (now - timeout) % period else timeout + period

theorem le_nextTimeout {timeout now : Instant} (period : Duration) (h : timeout ≤ now) :
    timeout + period ≤ nextTimeout timeout now period := by
  rw [nextTimeout]
  split
  · have hmod : (now - timeout) % period ≤ now - timeout := Nat.mod_le _ _
    calc timeout + period = now + period - (now - timeout) := by
          rw [Nat.add_comm now, Nat.add_sub_assoc (Nat.sub_le _ _), Nat.sub_sub_self h,
            Nat.add_comm]
      _ ≤ now + period - (now - timeout) % period := Nat.sub_le_sub_left hmod _
  · exact Nat.le_refl _

/-- A sender after its first tick, which is immediate. -/
def Sender.new (created : Instant) (interval : Duration) : Sender where
  interval
  nextTick := created + interval
  batch := {}
  eventCount := 0
  phase := .selecting

/-- `record_local_drop`. -/
def recordLocalDrop (events : ℕ) : List Effect :=
  [.add .localDroppedMessages events, .add .droppedMessages events]

/-- `record_write_failure`. -/
def recordWriteFailure (events : ℕ) (failure : Failure) : List Effect :=
  .add .droppedMessages events ::
    if .elapsed ∈ failure then [.add .messageTimeouts events] else []

namespace Sender

variable (s : Sender)

/-- The batch is dropped, unless it is empty. -/
def dropBatch : List Effect := if 0 < s.batch.events then recordLocalDrop s.batch.events else []

/-- `send_positions` leaves its loop. -/
def leave : Sender × List Effect := ({ s with phase := .returned (.ok ()) }, s.dropBatch)

/-- `send_positions` returns an error after a failed write. -/
def fail : Sender := { s with phase := .returned (.error [.runtime .write]) }

/-- The end of a tick. -/
def endTick : Sender × List Effect :=
  if config.scenario.abruptDisconnect.enabled ∧
      max config.scenario.abruptDisconnect.afterEvents 1 ≤ s.eventCount then s.leave
  else ({ s with phase := .selecting }, [])

/-- A write of the batch ends. -/
def flushOutcome (next : AfterFlush) : WriteOutcome → Sender × List Effect
  | .pending write => ({ s with phase := .flushing write next }, [])
  | .done => ({ s with phase := .publishing next }, [.add .sentMessages s.batch.events])
  | .failed failure => (s.fail, recordWriteFailure s.batch.events failure)

/-- A write of an oversized frame ends. -/
def frameOutcome : WriteOutcome → Sender × List Effect
  | .pending write => ({ s with phase := .writingFrame write }, [])
  | .done =>
    let (s', effects) := s.endTick config
    (s', .add .sentMessages 1 :: effects)
  | .failed failure => (s.fail, recordWriteFailure 1 failure)

/-- What follows a flush. -/
def afterFlush (now : Instant) : AfterFlush → Sender × List Effect
  | .batch => s.endTick config
  | .frame bytes => s.frameOutcome config (Write.start config bytes now)

/-- `flush_batch` up to its first suspension. -/
def flush (now : Instant) (next : AfterFlush) : Sender × List Effect :=
  if s.batch.bytes.isEmpty then s.afterFlush config now next
  else s.flushOutcome next (Write.start config s.batch.bytes now)

/-- The position events of the batch that end among the next `n` bytes written. -/
def delivered (written n : ℕ) : List Effect :=
  (s.batch.correlations.filter fun c => written < c.endsAt ∧ c.endsAt ≤ written + n).map
    fun c => .deliver c.id

/-- The events of the batch under the lock of the ledger. -/
def publish : List Effect :=
  s.batch.correlations.map fun c => .publish c.id participant.id c.sentAt

/-- One more event in the batch; an invalid one has no id. -/
def push (bytes : List UInt8) (id : Option Uuid) (now : Instant) : OutgoingBatch where
  bytes := s.batch.bytes ++ bytes
  correlations := s.batch.correlations ++
    id.toList.map fun id => ⟨id, now, s.batch.bytes.length + bytes.length⟩
  events := s.batch.events + 1

/-- The batch is over the frame safety limit. -/
def overflow : Sender × List Effect :=
  ({ s with phase := .returned (.error [.message "outgoing batch exceeds frame safety limit"]) },
    recordLocalDrop s.batch.events)

/-- An event that joins the batch. -/
def append (now : Instant) : Sender × List Effect :=
  if 8 * 1024 * 1024 < s.batch.bytes.length then s.overflow
  else if max config.scenario.fragmentation.eventsPerWrite 1 ≤ s.batch.events then
    s.flush config now .batch
  else s.endTick config

/-- The bytes of the event that a tick makes. -/
def eventBytes (utc : OffsetDateTime) (id : Uuid) : List UInt8 :=
  (invalidOrPosition config s.eventCount).getD (asBytes (positionXml P participant config utc id))

/-- The id of the event that a tick makes: `none` if it is invalid. -/
def eventId (id : Uuid) : Option Uuid :=
  if (invalidKind config s.eventCount).isNone then some id else none

/-- Is the event that a tick makes an oversized frame? -/
def isFrame : Bool := invalidKind config s.eventCount = some .oversizedFrame

/-- The sender with one more event; an oversized frame does not join the batch. -/
def ticked (now : Instant) (utc : OffsetDateTime) (id : Uuid) : Sender :=
  { s with
    nextTick := nextTimeout s.nextTick now s.interval
    eventCount := s.eventCount + 1
    batch := if s.isFrame config then s.batch
      else s.push (s.eventBytes P participant config utc id) (s.eventId config id) now }

/-- What is done with the event: an oversized frame follows a flush of the batch. -/
def dispatch (now : Instant) (utc : OffsetDateTime) (id : Uuid) : Sender × List Effect :=
  let ticked := s.ticked P participant config now utc id
  if s.isFrame config then
    ticked.flush config now (.frame (s.eventBytes P participant config utc id))
  else ticked.append config now

/-- A tick of the interval. -/
def tick (now : Instant) (utc : OffsetDateTime) (id : Uuid) : Sender × List Effect :=
  let (s', effects) := s.dispatch P participant config now utc id
  (s', .generate (s.eventId config id) :: effects)

/-- A step of `send_positions`. -/
def step (w : World) : SenderAct → Option (Sender × List Effect)
  -- a `select!` takes any branch that is ready
  | .tick utc id =>
    match s.phase with
    | .selecting =>
      if s.nextTick ≤ w.now then
        some (s.tick P participant config w.now utc id)
      else none
    | _ => none
  | .stopped =>
    match s.phase with
    | .selecting => if w.stop then some s.leave else none
    | _ => none
  | .deadline =>
    match s.phase with
    | .selecting => if config.run.duration ≤ w.now then some s.leave else none
    | _ => none
  -- while it writes, a sender looks neither at the stop signal nor at the deadline
  | .write act =>
    match s.phase with
    | .flushing write next =>
      (write.step config w.now act).map fun (outcome, bytes) =>
        let (s', effects) := s.flushOutcome next outcome
        (s', .write bytes :: s.delivered write.written bytes.length ++ effects)
    | .writingFrame write =>
      (write.step config w.now act).map fun (outcome, bytes) =>
        let (s', effects) := s.frameOutcome config outcome
        (s', .write bytes :: effects)
    | _ => none
  -- the ledger is locked for the whole batch
  | .published =>
    match s.phase with
    | .publishing next =>
      let (s', effects) := { s with batch := {} }.afterFlush config w.now next
      some (s', s.publish participant ++ effects)
    | _ => none

/-! ## What the steps do -/

section Keeps

/-- A continuation that keeps the ticks and the batch, and only counts. -/
structure Keeps (p : Sender × List Effect) : Prop where
  interval : p.1.interval = s.interval
  nextTick : p.1.nextTick = s.nextTick
  eventCount : p.1.eventCount = s.eventCount
  batch : p.1.batch = s.batch
  effects : ∀ e ∈ p.2, e.CountsEvents

theorem keeps_of_counts {phase : SenderPhase} {effects : List Effect}
    (h : ∀ e ∈ effects, e.CountsEvents) :
    s.Keeps ({ s with phase }, effects) :=
  ⟨rfl, rfl, rfl, rfl, h⟩

theorem recordLocalDrop_counts (events : ℕ) :
    ∀ e ∈ recordLocalDrop events, e.CountsEvents := by
  simp [recordLocalDrop, Effect.CountsEvents, Counter.isEvent]

theorem recordWriteFailure_counts (events : ℕ) (failure : Failure) :
    ∀ e ∈ recordWriteFailure events failure, e.CountsEvents := by
  rw [recordWriteFailure]
  split <;> simp [Effect.CountsEvents, Counter.isEvent]

theorem keeps_leave : s.Keeps s.leave := by
  refine s.keeps_of_counts ?_
  rw [dropBatch]
  split
  · exact recordLocalDrop_counts _
  · simp

theorem keeps_endTick : s.Keeps (s.endTick config) := by
  rw [endTick]
  split
  · exact s.keeps_leave
  · exact s.keeps_of_counts (by simp)

theorem keeps_flushOutcome (next : AfterFlush) (outcome : WriteOutcome) :
    s.Keeps (s.flushOutcome next outcome) := by
  cases outcome with
  | pending write => exact s.keeps_of_counts (by simp)
  | done => exact s.keeps_of_counts (by simp [Effect.CountsEvents, Counter.isEvent])
  | failed failure => exact s.keeps_of_counts (recordWriteFailure_counts _ _)

theorem keeps_frameOutcome (outcome : WriteOutcome) : s.Keeps (s.frameOutcome config outcome) := by
  cases outcome with
  | pending write => exact s.keeps_of_counts (by simp)
  | done =>
    obtain ⟨interval, nextTick, eventCount, batch, effects⟩ := s.keeps_endTick config
    exact ⟨interval, nextTick, eventCount, batch,
      by simpa [frameOutcome, Effect.CountsEvents, Counter.isEvent] using effects⟩
  | failed failure => exact s.keeps_of_counts (recordWriteFailure_counts _ _)

theorem keeps_afterFlush (now : Instant) (next : AfterFlush) :
    s.Keeps (s.afterFlush config now next) := by
  cases next with
  | batch => exact s.keeps_endTick config
  | frame bytes => exact s.keeps_frameOutcome config _

theorem keeps_flush (now : Instant) (next : AfterFlush) : s.Keeps (s.flush config now next) := by
  rw [flush]
  split
  · exact s.keeps_afterFlush config _ _
  · exact s.keeps_flushOutcome _ _

theorem keeps_append (now : Instant) : s.Keeps (s.append config now) := by
  rw [append]
  split
  · exact s.keeps_of_counts (recordLocalDrop_counts _)
  · split
    · exact s.keeps_flush config _ _
    · exact s.keeps_endTick config

theorem keeps_dispatch (now : Instant) (utc : OffsetDateTime) (id : Uuid) :
    (s.ticked P participant config now utc id).Keeps
      (s.dispatch P participant config now utc id) := by
  rw [dispatch]
  split
  · exact keeps_flush _ _ _ _
  · exact keeps_append _ _ _

theorem Keeps.sends {s : Sender} {p : Sender × List Effect} (h : s.Keeps p) :
    ∀ e ∈ p.2, e.Sends :=
  fun e he => (h.effects e he).sends

theorem delivered_sends (written n : ℕ) : ∀ e ∈ s.delivered written n, e.Sends := by
  intro e he
  obtain ⟨c, -, rfl⟩ := List.mem_map.mp he
  trivial

theorem publish_sends : ∀ e ∈ s.publish participant, e.Sends := by
  intro e he
  obtain ⟨c, -, rfl⟩ := List.mem_map.mp he
  trivial

end Keeps

section Step

variable {P participant config} {s} {s' : Sender} {w : World} {act : SenderAct}
  {out : List Effect}

/-- The sender with a position event more in its batch. -/
def withPosition (s : Sender) (bytes : List UInt8) (id : Uuid) (now : Instant) : Sender :=
  { s with
    nextTick := nextTimeout s.nextTick now s.interval
    eventCount := s.eventCount + 1
    batch := s.push bytes (some id) now }

section Position

variable {now : Instant} {utc : OffsetDateTime} {id : Uuid} {bytes fragment : List UInt8}
  {rest : List (List UInt8)}

/-- A tick of a run without invalid events. -/
theorem tick_of_valid (hinvalid : config.scenario.invalid.enabled = false)
    (hbytes : asBytes (positionXml P participant config utc id) = bytes) :
    s.tick P participant config now utc id =
      (((s.withPosition bytes id now).append config now).1,
        .generate (some id) :: ((s.withPosition bytes id now).append config now).2) := by
  have hkind : invalidKind config s.eventCount = none := by simp [invalidKind, hinvalid]
  have hevent : s.eventBytes P participant config utc id = bytes := by
    simp [eventBytes, invalidOrPosition, hkind, hbytes]
  have hframe : s.isFrame config = false := by simp [isFrame, hkind]
  have hid : s.eventId config id = some id := by simp [eventId, hkind]
  simp only [tick, dispatch, ticked, hframe, hevent, hid, Bool.false_eq_true, if_false]
  rfl

/-- A position event that leaves room in the batch. -/
theorem tick_of_room (hinvalid : config.scenario.invalid.enabled = false)
    (habrupt : config.scenario.abruptDisconnect.enabled = false)
    (hbytes : asBytes (positionXml P participant config utc id) = bytes)
    (hlimit : s.batch.bytes.length + bytes.length ≤ 8 * 1024 * 1024)
    (hroom : s.batch.events + 1 < max config.scenario.fragmentation.eventsPerWrite 1) :
    s.tick P participant config now utc id =
      ({ s.withPosition bytes id now with phase := .selecting }, [.generate (some id)]) := by
  have hsmall : ¬ 8 * 1024 * 1024 < (s.withPosition bytes id now).batch.bytes.length := by
    simpa [withPosition, push] using hlimit
  have hopen : ¬ max config.scenario.fragmentation.eventsPerWrite 1 ≤
      (s.withPosition bytes id now).batch.events := Nat.not_le.mpr hroom
  rw [tick_of_valid hinvalid hbytes, append, if_neg hsmall, if_neg hopen]
  simp only [endTick, habrupt, Bool.false_eq_true, false_and, if_false]

/-- A position event that fills the batch. -/
theorem tick_of_full (hinvalid : config.scenario.invalid.enabled = false)
    (hfragments : fragments config.scenario.fragmentation.chunkSizes (s.batch.bytes ++ bytes) =
      fragment :: rest)
    (hbytes : asBytes (positionXml P participant config utc id) = bytes)
    (hlimit : s.batch.bytes.length + bytes.length ≤ 8 * 1024 * 1024)
    (hfull : max config.scenario.fragmentation.eventsPerWrite 1 ≤ s.batch.events + 1)
    (hne : bytes ≠ []) :
    s.tick P participant config now utc id =
      ({ s.withPosition bytes id now with
          phase := .flushing ⟨fragment :: rest, 0, now⟩ .batch },
        [.generate (some id)]) := by
  have hsmall : ¬ 8 * 1024 * 1024 < (s.withPosition bytes id now).batch.bytes.length := by
    simpa [withPosition, push] using hlimit
  have hclosed : max config.scenario.fragmentation.eventsPerWrite 1 ≤
      (s.withPosition bytes id now).batch.events := hfull
  have hnonempty : (s.withPosition bytes id now).batch.bytes.isEmpty = false := by
    simp [withPosition, push, hne]
  have hstart : Write.start config (s.withPosition bytes id now).batch.bytes now =
      .pending ⟨fragment :: rest, 0, now⟩ := by
    simp [Write.start, hfragments, withPosition, push]
  rw [tick_of_valid hinvalid hbytes, append, if_neg hsmall, if_pos hclosed]
  simp only [flush, hnonempty, Bool.false_eq_true, if_false, hstart, flushOutcome]

end Position

/-- A step that is not a tick, as a continuation of a sender with the same ticks. -/
def Idles (s s' : Sender) (out : List Effect) : Prop :=
  s'.interval = s.interval ∧ s'.nextTick = s.nextTick ∧ s'.eventCount = s.eventCount ∧
    (∀ c ∈ s'.batch.correlations, c ∈ s.batch.correlations) ∧
    ∀ e ∈ out, e.Sends

theorem Keeps.idles {p : Sender × List Effect} (h : s.Keeps p) : s.Idles p.1 p.2 :=
  ⟨h.interval, h.nextTick, h.eventCount, h.batch ▸ fun _ hc => hc, h.sends⟩

/-- The steps of a sender, one for each point where it is suspended. -/
inductive Steps (P : Platform) (participant : ParticipantConfig) (config : AppConfig) (w : World)
    (s : Sender) (p : Sender × List Effect) : SenderAct → Prop where
  | tick (utc : OffsetDateTime) (id : Uuid) (hphase : s.phase = .selecting)
      (hdue : s.nextTick ≤ w.now)
      (hp : p = ((s.dispatch P participant config w.now utc id).1,
        .generate (s.eventId config id) ::
          (s.dispatch P participant config w.now utc id).2)) :
      Steps P participant config w s p (.tick utc id)
  | stopped (hphase : s.phase = .selecting) (hstop : w.stop = true) (hp : p = s.leave) :
      Steps P participant config w s p .stopped
  | deadline (hphase : s.phase = .selecting) (hdue : config.run.duration ≤ w.now)
      (hp : p = s.leave) : Steps P participant config w s p .deadline
  /-- the batch is being written -/
  | flush (act : WriteAct) (write : Write) (next : AfterFlush) (outcome : WriteOutcome)
      (bytes : List UInt8) (hphase : s.phase = .flushing write next)
      (hwrite : write.step config w.now act = some (outcome, bytes))
      (hp : p = ((s.flushOutcome next outcome).1,
        .write bytes :: s.delivered write.written bytes.length ++
          (s.flushOutcome next outcome).2)) : Steps P participant config w s p (.write act)
  /-- an oversized frame is being written -/
  | frame (act : WriteAct) (write : Write) (outcome : WriteOutcome) (bytes : List UInt8)
      (hphase : s.phase = .writingFrame write)
      (hwrite : write.step config w.now act = some (outcome, bytes))
      (hp : p = ((s.frameOutcome config outcome).1,
        .write bytes :: (s.frameOutcome config outcome).2)) :
      Steps P participant config w s p (.write act)
  | publish (next : AfterFlush) (hphase : s.phase = .publishing next)
      (hp : p = (({ s with batch := {} }.afterFlush config w.now next).1,
        s.publish participant ++ ({ s with batch := {} }.afterFlush config w.now next).2)) :
      Steps P participant config w s p .published

/-- **A step starts where the sender is suspended.** -/
theorem steps_of_step {p : Sender × List Effect}
    (h : s.step P participant config w act = some p) : Steps P participant config w s p act := by
  cases act with
  | tick utc id =>
    simp only [step] at h
    split at h
    · next hphase =>
      simp only [Option.ite_none_right_eq_some, Option.some.injEq] at h
      obtain ⟨hdue, rfl⟩ := h
      exact .tick utc id hphase hdue rfl
    · cases h
  | stopped =>
    simp only [step] at h
    split at h
    · next hphase =>
      simp only [Option.ite_none_right_eq_some, Option.some.injEq] at h
      exact .stopped hphase h.1 h.2.symm
    · cases h
  | deadline =>
    simp only [step] at h
    split at h
    · next hphase =>
      simp only [Option.ite_none_right_eq_some, Option.some.injEq] at h
      exact .deadline hphase h.1 h.2.symm
    · cases h
  | write act =>
    simp only [step] at h
    split at h
    · next write next hphase =>
      obtain ⟨⟨outcome, bytes⟩, hwrite, rfl⟩ := Option.map_eq_some_iff.mp h
      exact .flush act write next outcome bytes hphase hwrite rfl
    · next write hphase =>
      obtain ⟨⟨outcome, bytes⟩, hwrite, rfl⟩ := Option.map_eq_some_iff.mp h
      exact .frame act write outcome bytes hphase hwrite rfl
    · cases h
  | published =>
    simp only [step] at h
    split at h
    · next next hphase => exact .publish next hphase (Option.some.inj h).symm
    · cases h

/-- **A step is a tick, or makes no event.** -/
theorem step_cases (h : s.step P participant config w act = some (s', out)) :
    (∃ utc id, act = .tick utc id ∧ s.nextTick ≤ w.now ∧
      ∃ effects, out = .generate (s.eventId config id) :: effects ∧
        (s.ticked P participant config w.now utc id).Keeps (s', effects)) ∨
    ((∀ utc id, act ≠ .tick utc id) ∧ s.Idles s' out) := by
  cases steps_of_step h with
  | tick utc id hphase hdue hp =>
    obtain ⟨rfl, rfl⟩ := Prod.mk.inj hp
    exact .inl ⟨utc, id, rfl, hdue, _, rfl,
      s.keeps_dispatch P participant config w.now utc id⟩
  | stopped _ _ hp | deadline _ _ hp =>
    obtain ⟨rfl, rfl⟩ := Prod.mk.inj hp
    exact .inr ⟨by simp, s.keeps_leave.idles⟩
  | flush act write next outcome bytes hphase hwrite hp =>
    obtain ⟨rfl, rfl⟩ := Prod.mk.inj hp
    obtain ⟨hinterval, hnext, hcount, hbatch, hnone⟩ :=
      (s.keeps_flushOutcome next outcome).idles
    refine .inr ⟨by simp, hinterval, hnext, hcount, hbatch, ?_⟩
    simp only [List.cons_append, List.mem_cons, List.mem_append]
    rintro e (rfl | he | he)
    · trivial
    · exact s.delivered_sends _ _ e he
    · exact hnone e he
  | frame act write outcome bytes hphase hwrite hp =>
    obtain ⟨rfl, rfl⟩ := Prod.mk.inj hp
    obtain ⟨hinterval, hnext, hcount, hbatch, hnone⟩ :=
      (s.keeps_frameOutcome config outcome).idles
    refine .inr ⟨by simp, hinterval, hnext, hcount, hbatch, ?_⟩
    simp only [List.mem_cons]
    rintro e (rfl | he)
    · trivial
    · exact hnone e he
  | publish next hphase hp =>
    obtain ⟨rfl, rfl⟩ := Prod.mk.inj hp
    obtain ⟨hinterval, hnext, hcount, hbatch, hnone⟩ :=
      (keeps_afterFlush config { s with batch := {} } w.now next).idles
    -- the batch is empty after the step
    refine .inr ⟨by simp, hinterval, hnext, hcount,
      fun c hc => absurd (hbatch c hc) List.not_mem_nil, ?_⟩
    simp only [List.mem_append]
    rintro e (he | he)
    · exact publish_sends _ _ e he
    · exact hnone e he

theorem step_ofSession (h : s.step P participant config w act = some (s', out)) :
    ∀ e ∈ out, e.OfSession := by
  rcases step_cases h with ⟨utc, id, rfl, -, effects, rfl, hkeeps⟩ | ⟨-, -, -, -, -, hsends⟩
  · intro e he
    rcases List.mem_cons.mp he with rfl | he
    · trivial
    · exact (hkeeps.sends e he).ofSession
  · exact fun e he => (hsends e he).ofSession

end Step

end Sender

end TakBench
