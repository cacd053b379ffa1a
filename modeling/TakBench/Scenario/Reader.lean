import TakBench.Config
import TakBench.Protocol.Inspect
import TakBench.Scenario.World

/-!
# The reader

`read_events` reads from the connection, takes the events out of the stream and records them in
the ledger. It may pause before its first read and delay after each read.

## Main definitions

* `Reader`, `Reader.step`

## Main results

* `Reader.step_quiet`: a reader sends nothing and publishes nothing
* `Reader.step_observe`: a reader records the id it holds
-/

namespace TakBench

variable (P : Platform) (participant : ParticipantConfig) (config : AppConfig)

inductive ReaderPhase where
  /-- a task that has not run yet -/
  | spawned
  /-- the pause before the first read, with its end -/
  | pausing (endsAt : Instant)
  /-- a read in progress, with its start -/
  | reading (since : Instant)
  /-- the delay after a read, with its end -/
  | delaying (endsAt : Instant) (bytes : List UInt8)
  /-- the events of a push that are not recorded yet -/
  | recording (raws : List String)
  /-- waiting for the lock of the ledger to record an id -/
  | locking (id : Uuid) (raws : List String)
  | returned (result : Except Failure Unit)

structure Reader where
  decoder : CotStreamDecoder
  phase : ReaderPhase

/-- What a reader sees. -/
inductive ReaderAct where
  | started
  | stopped
  | deadline
  | received (bytes : List UInt8)
  | peerClosed
  | readFailed
  | timedOut
  | delayOver
  | inspected
  | recorded

namespace Reader

/-- The reader returns. -/
def finish (reader : Reader) (result : Except Failure Unit) : Reader :=
  { reader with phase := .returned result }

/-- A delay in progress is over early: `wait_for_delay` returns `false`. -/
def cut (reader : Reader) : Option (Reader × List Effect) :=
  match reader.phase with
  | .pausing _ | .delaying _ _ | .reading _ => some (reader.finish (.ok ()), [])
  | _ => none

/-- `read_events` up to its first suspension. -/
def start (w : World) : Reader :=
  let decoder := CotStreamDecoder.new (8 * 1024 * 1024)
  match participant.pauseReadFor with
  | none => ⟨decoder, .reading w.now⟩
  | some pause =>
    match enterDelay w config.run.duration pause with
    | none => ⟨decoder, .returned (.ok ())⟩
    | some endsAt => ⟨decoder, .pausing endsAt⟩

/-- `read_events` in a task of its own. -/
def spawn : Reader := ⟨CotStreamDecoder.new (8 * 1024 * 1024), .spawned⟩

/-- The bytes of a read go to the decoder. -/
def push (reader : Reader) (bytes : List UInt8) : Reader :=
  match CotStreamDecoder.push (validateXml P) reader.decoder bytes with
  | (decoder, .ok raws) => ⟨decoder, .recording raws⟩
  | (decoder, .error _) => ⟨decoder, .returned (.error [.runtime .parse])⟩

/-- What is recorded for an id under the lock of the ledger. -/
def record (w : World) (id : Uuid) : List Effect :=
  .observe participant.id id ::
    if ((w.ledger.seen.lookup (participant.id, id)).isSome) then [.add .duplicateMessages 1]
    else
      match w.ledger.sent.lookup id with
      | some (_, sentAt) => [.record .delivery (w.now - sentAt)]
      | none => []

/-- A step of `read_events`. -/
def step (w : World) (reader : Reader) : ReaderAct → Option (Reader × List Effect)
  | .started =>
    match reader.phase with
    | .spawned => some (start participant config w, [])
    | _ => none
  | .stopped => if w.stop then reader.cut else none
  | .deadline => if config.run.duration ≤ w.now then reader.cut else none
  | .received bytes =>
    match reader.phase with
    | .reading _ =>
      if 0 < bytes.length ∧ bytes.length ≤ 8192 then
        match participant.readDelay with
        | none => some (reader.push P bytes, [])
        | some delay =>
          match enterDelay w config.run.duration delay with
          | none => some (reader.finish (.ok ()), [])
          | some endsAt => some ({ reader with phase := .delaying endsAt bytes }, [])
      else none
    | _ => none
  | .peerClosed =>
    match reader.phase with
    | .reading _ => some (reader.finish (.error [.runtime .peerClosed]), [])
    | _ => none
  | .readFailed =>
    match reader.phase with
    | .reading _ => some (reader.finish (.error [.runtime .read]), [])
    | _ => none
  | .timedOut =>
    match reader.phase with
    | .reading since =>
      if since + config.timeouts.read ≤ w.now then
        -- a functional run tolerates silence
        if config.run.profile = .functional then
          some ({ reader with phase := .reading w.now }, [.add .messageTimeouts 1])
        else some (reader.finish (.error [.runtime .read]), [.add .messageTimeouts 1])
      else none
    | _ => none
  | .delayOver =>
    match reader.phase with
    | .pausing endsAt =>
      if endsAt ≤ w.now then some ({ reader with phase := .reading w.now }, []) else none
    | .delaying endsAt bytes =>
      if endsAt ≤ w.now then some (reader.push P bytes, []) else none
    | _ => none
  | .inspected =>
    match reader.phase with
    | .recording [] => some ({ reader with phase := .reading w.now }, [])
    | .recording (raw :: raws) =>
      match inspectEvent P raw with
      | .error _ => some (reader.finish (.error [.runtime .parse]), [])
      | .ok event =>
        match event.correlationId with
        | none => some ({ reader with phase := .recording raws }, [.add .receivedMessages 1])
        | some id => some ({ reader with phase := .locking id raws }, [.add .receivedMessages 1])
    | _ => none
  | .recorded =>
    match reader.phase with
    | .locking id raws =>
      some ({ reader with phase := .recording raws }, record participant w id)
    | _ => none

/-- The id that a reader is about to record. -/
def holds? (reader : Reader) : Option Uuid :=
  match reader.phase with
  | .locking id _ => some id
  | _ => none

variable {P participant config} {w : World} {reader reader' : Reader} {act : ReaderAct}
  {out : List Effect}

theorem record_quiet {id : Uuid} : ∀ e ∈ record participant w id, e.Quiet := by
  intro e he
  rw [record] at he
  rcases List.mem_cons.mp he with rfl | he
  · trivial
  · split at he
    · obtain rfl := List.mem_singleton.mp he
      simp [Effect.Quiet]
    · split at he
      · obtain rfl := List.mem_singleton.mp he
        trivial
      · simp at he

/-- The effects of a reader are those of recording the id it holds, or a count of received events
or of timeouts. -/
theorem step_effects (h : step P participant config w reader act = some (reader', out)) :
    (∃ id, reader.holds? = some id ∧ act = .recorded ∧ out = record participant w id) ∨
      out = [] ∨ out = [.add .messageTimeouts 1] ∨ out = [.add .receivedMessages 1] := by
  obtain ⟨decoder, phase⟩ := reader
  cases act with
  | recorded =>
    cases phase with
    | locking id raws =>
      simp only [step, Option.some.injEq, Prod.mk.injEq] at h
      exact .inl ⟨id, rfl, rfl, h.2.symm⟩
    | _ => simp [step] at h
  | _ =>
    refine .inr ?_
    simp only [step, cut] at h
    grind

/-- **A reader sends nothing** and publishes nothing. -/
theorem step_quiet (h : step P participant config w reader act = some (reader', out)) :
    ∀ e ∈ out, e.Quiet := by
  rcases step_effects h with ⟨id, -, -, rfl⟩ | rfl | rfl | rfl
  · exact record_quiet
  · simp
  · simp [Effect.Quiet]
  · simp [Effect.Quiet]

theorem step_ofSession (h : step P participant config w reader act = some (reader', out)) :
    ∀ e ∈ out, e.OfSession := by
  rcases step_effects h with ⟨id, -, -, rfl⟩ | rfl | rfl | rfl
  · rw [record]
    split
    · simp [Effect.OfSession, Counter.isEvent]
    · split <;> simp [Effect.OfSession, Counter.isEvent]
  · simp
  · simp [Effect.OfSession, Counter.isEvent]
  · simp [Effect.OfSession, Counter.isEvent]

/-- A reader records the id it holds, for its own participant. -/
theorem step_observe (h : step P participant config w reader act = some (reader', out))
    {receiver : String} {id : Uuid} (he : .observe receiver id ∈ out) :
    receiver = participant.id ∧ reader.holds? = some id ∧ act = .recorded := by
  rcases step_effects h with ⟨held, hholds, hact, rfl⟩ | rfl | rfl | rfl
  · rw [record, List.mem_cons, Effect.observe.injEq] at he
    rcases he with ⟨rfl, rfl⟩ | he
    · exact ⟨rfl, hholds, hact⟩
    · split at he
      · simp at he
      · split at he <;> simp at he
  · simp at he
  · simp at he
  · simp at he

end Reader

end TakBench
