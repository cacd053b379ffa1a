import TakBench.Scenario.Barrier
import TakBench.Scenario.Reader
import TakBench.Scenario.Sender

/-!
# A session on one connection

`run_connected` runs the reader and the sender of a participant, according to its role. A
participant that does both reads in a task of its own and stops when either side is done: the
reader is aborted when the sender is done, and the sender is dropped where it stands when the
reader is done.

## Main definitions

* `Session`, `Session.step`
* `Session.sender?`, `Session.reader?`: the sender and the reader that are alive
* `Session.Steps`: the steps, each with the session that it starts from

## Main results

* `Session.steps_of_step`: a step is one of these
* `Session.step_cases`: a step is one of the sender, the start or the end of a sender, or quiet
-/

namespace TakBench

variable (P : Platform) (participant : ParticipantConfig) (config : AppConfig)

/-- Where `run_connected` stands. -/
inductive Session where
  /-- the delay before the first write, with its end -/
  | slowConnecting (endsAt : Instant)
  /-- a participant that only receives -/
  | receiving (reader : Reader)
  | waiting (barrier : BarrierPhase) (reader : Option Reader)
  | sending (sender : Sender) (reader : Option Reader)
  /-- an aborted reader runs on to its next suspension point -/
  | joining (reader : Reader) (result : Except Failure Unit)
  | returned (result : Except Failure Unit)
  /-- a panic leaves the task of the reader behind -/
  | panicked (reader : Option Reader)

/-- What a session sees. -/
inductive SessionAct where
  | delayOver
  | delayCut
  | barrier (act : BarrierAct)
  | sender (act : SenderAct)
  | reader (act : ReaderAct)
  /-- `select!` sees that the task of the reader is done -/
  | readerDone
  /-- the aborted task of the reader is gone -/
  | readerJoined

/-- Does the sender take no part? -/
def SessionAct.isPassive : SessionAct → Bool
  | .sender _ | .readerDone => false
  | _ => true

namespace Session

/-- A participant that only receives is done when its reader is. -/
def afterReader (reader : Reader) : Session :=
  match reader.phase with
  | .returned result => .returned result
  | _ => .receiving reader

/-- The part of the role. -/
def enter (w : World) : Session :=
  match participant.role with
  | .receiveOnly => afterReader (Reader.start participant config w)
  | .sendOnly => .waiting .checking none
  | .sendReceive => .waiting .checking (some Reader.spawn)

/-- `run_connected` up to its first suspension. -/
def start (w : World) : Session :=
  if config.scenario.slowConnect.enabled ∧ participant.role ≠ .receiveOnly then
    match enterDelay w config.run.duration config.scenario.slowConnect.initialWriteDelay with
    | none => .returned (.ok ())
    | some endsAt => .slowConnecting endsAt
  else enter participant config w

/-- The session is over, once the reader is. -/
def close (result : Except Failure Unit) : Option Reader → Session
  | none => .returned result
  | some reader => .joining reader result

/-- The barrier is open: the interval is created. -/
def openSender (w : World) (reader : Option Reader) : Session :=
  match emissionInterval config with
  | none => .panicked reader
  | some 0 => .panicked reader
  | some interval => .sending (Sender.new w.now interval) reader

/-- A step of the waiter. -/
def afterBarrier (w : World) (reader : Option Reader) : BarrierPhase → Session
  | .returned .ready => openSender config w reader
  | .returned _ => close (.ok ()) reader
  | barrier => .waiting barrier reader

/-- A step of the sender. -/
def afterSender (reader : Option Reader) (sender : Sender) : Session :=
  match sender.phase with
  | .returned result => close result reader
  | _ => .sending sender reader

/-- A step of `run_connected`. -/
def step (w : World) (session : Session) : SessionAct → Option (Session × List Effect)
  | .delayOver =>
    match session with
    | .slowConnecting endsAt =>
      if endsAt ≤ w.now then some (enter participant config w, []) else none
    | _ => none
  | .delayCut =>
    match session with
    | .slowConnecting _ =>
      if w.stop ∨ config.run.duration ≤ w.now then some (.returned (.ok ()), []) else none
    | _ => none
  | .barrier act =>
    match session with
    | .waiting barrier reader =>
      (barrier.step config w act).map fun barrier => (afterBarrier config w reader barrier, [])
    | _ => none
  | .sender act =>
    match session with
    | .sending sender reader =>
      (sender.step P participant config w act).map fun (sender, effects) =>
        (afterSender reader sender, effects)
    | _ => none
  -- the reader runs in a task of its own, until it is aborted and joined
  | .reader act =>
    match session with
    | .receiving reader =>
      (reader.step P participant config w act).map fun (reader, effects) =>
        (afterReader reader, effects)
    | .waiting barrier (some reader) =>
      (reader.step P participant config w act).map fun (reader, effects) =>
        (.waiting barrier (some reader), effects)
    | .sending sender (some reader) =>
      (reader.step P participant config w act).map fun (reader, effects) =>
        (.sending sender (some reader), effects)
    | .joining reader result =>
      (reader.step P participant config w act).map fun (reader, effects) =>
        (.joining reader result, effects)
    | .panicked (some reader) =>
      (reader.step P participant config w act).map fun (reader, effects) =>
        (.panicked (some reader), effects)
    | _ => none
  -- the sender is dropped where it is when its reader is done
  | .readerDone =>
    match session with
    | .sending _ (some reader) =>
      match reader.phase with
      | .returned result => some (.returned result, [])
      | _ => none
    | _ => none
  | .readerJoined =>
    match session with
    | .joining _ result => some (.returned result, [])
    | _ => none

/-- The sender that is alive. -/
def sender? : Session → Option Sender
  | .sending sender _ => some sender
  | _ => none

/-- The reader that is alive. -/
def reader? : Session → Option Reader
  | .receiving reader | .joining reader _ => some reader
  | .waiting _ reader | .sending _ reader | .panicked reader => reader
  | _ => none

/-- May the session still start a sender? -/
def mayStart : Session → Bool
  | .slowConnecting _ | .waiting _ _ => true
  | _ => false

variable {P participant config} {w : World} {session session' : Session} {act : SessionAct}
  {out : List Effect}

/-- `run_connected` as a component of a run. -/
def component (P : Platform) (participant : ParticipantConfig) (config : AppConfig) :
    Component World Session SessionAct Effect where
  step := step P participant config

/-! ## What the steps do -/

theorem afterReader_sender? (reader : Reader) : (afterReader reader).sender? = none := by
  rw [afterReader]
  split <;> rfl

theorem afterReader_mayStart {reader reader' : Reader}
    (h : (afterReader reader').mayStart = true) : (receiving reader).mayStart = true := by
  rw [afterReader] at h
  split at h <;> cases h

theorem enter_sender? : (enter participant config w).sender? = none := by
  rw [enter]
  split
  · exact afterReader_sender? _
  · rfl
  · rfl

theorem start_sender? : (start participant config w).sender? = none := by
  rw [start]
  split
  · split <;> rfl
  · exact enter_sender?

theorem close_sender? (result : Except Failure Unit) (reader : Option Reader) :
    (close result reader).sender? = none := by
  cases reader <;> rfl

/-- A sender that has returned is not alive. -/
def alive? (sender : Sender) : Option Sender :=
  match sender.phase with
  | .returned _ => none
  | _ => some sender

theorem eq_of_alive? {sender sender' : Sender} (h : alive? sender = some sender') :
    sender = sender' := by
  rw [alive?] at h
  split at h
  · cases h
  · exact Option.some.inj h

theorem afterSender_sender? (reader : Option Reader) (sender : Sender) :
    (afterSender reader sender).sender? = alive? sender := by
  rw [afterSender, alive?]
  split
  · exact close_sender? _ _
  · rfl

theorem afterSender_mayStart (reader : Option Reader) (sender : Sender) :
    (afterSender reader sender).mayStart = false := by
  rw [afterSender]
  split
  · cases reader <;> rfl
  · rfl

/-- An open barrier starts a sender, unless the interval panics. -/
theorem openSender_cases (config : AppConfig) (w : World) (reader : Option Reader) :
    (∃ interval, emissionInterval config = some interval ∧ 0 < interval ∧
      openSender config w reader = .sending (Sender.new w.now interval) reader) ∨
    openSender config w reader = .panicked reader := by
  rw [openSender]
  split
  · exact .inr rfl
  · exact .inr rfl
  · next interval hne hinterval =>
    exact .inl ⟨interval, hinterval, Nat.pos_of_ne_zero hne, rfl⟩

/-- A step of the reader that is alive. -/
def putReader (session : Session) (reader : Reader) : Session :=
  match session with
  | .receiving _ => afterReader reader
  | .waiting barrier _ => .waiting barrier (some reader)
  | .sending sender _ => .sending sender (some reader)
  | .joining _ result => .joining reader result
  | .panicked _ => .panicked (some reader)
  | session => session

/-- The steps of a session, in the order of `step`. -/
inductive Steps (P : Platform) (participant : ParticipantConfig) (config : AppConfig) (w : World) :
    Session → SessionAct → Session → List Effect → Prop where
  | enter (endsAt : Instant) (hdue : endsAt ≤ w.now) :
      Steps P participant config w (.slowConnecting endsAt) .delayOver
        (enter participant config w) []
  | delayCut (endsAt : Instant) (hover : w.stop = true ∨ config.run.duration ≤ w.now) :
      Steps P participant config w (.slowConnecting endsAt) .delayCut (.returned (.ok ())) []
  | barrier (barrier barrier' : BarrierPhase) (reader : Option Reader) (a : BarrierAct)
      (hbarrier : barrier.step config w a = some barrier') :
      Steps P participant config w (.waiting barrier reader) (.barrier a)
        (afterBarrier config w reader barrier') []
  | sender (sender sender' : Sender) (reader : Option Reader) (a : SenderAct) (out : List Effect)
      (hsender : sender.step P participant config w a = some (sender', out)) :
      Steps P participant config w (.sending sender reader) (.sender a)
        (afterSender reader sender') out
  | reader (session : Session) (reader reader' : Reader) (a : ReaderAct) (out : List Effect)
      (halive : session.reader? = some reader)
      (hreader : reader.step P participant config w a = some (reader', out)) :
      Steps P participant config w session (.reader a) (session.putReader reader') out
  | readerDone (sender : Sender) (reader : Reader) (result : Except Failure Unit)
      (hphase : reader.phase = .returned result) :
      Steps P participant config w (.sending sender (some reader)) .readerDone
        (.returned result) []
  | readerJoined (reader : Reader) (result : Except Failure Unit) :
      Steps P participant config w (.joining reader result) .readerJoined (.returned result) []

/-- **Each step starts from a session of its own.** -/
theorem steps_of_step (h : session.step P participant config w act = some (session', out)) :
    Steps P participant config w session act session' out := by
  cases act with
  | delayOver =>
    cases session with
    | slowConnecting endsAt =>
      simp only [step, Option.ite_none_right_eq_some, Option.some.injEq, Prod.mk.injEq] at h
      obtain ⟨hdue, rfl, rfl⟩ := h
      exact .enter endsAt hdue
    | _ => cases h
  | delayCut =>
    cases session with
    | slowConnecting endsAt =>
      simp only [step, Option.ite_none_right_eq_some, Option.some.injEq, Prod.mk.injEq] at h
      obtain ⟨hover, rfl, rfl⟩ := h
      exact .delayCut endsAt hover
    | _ => cases h
  | barrier a =>
    cases session with
    | waiting barrier reader =>
      obtain ⟨barrier', hbarrier, hp⟩ := Option.map_eq_some_iff.mp h
      obtain ⟨rfl, rfl⟩ := Prod.mk.inj hp
      exact .barrier barrier barrier' reader a hbarrier
    | _ => cases h
  | sender a =>
    cases session with
    | sending sender reader =>
      obtain ⟨⟨sender', effects⟩, hsender, hp⟩ := Option.map_eq_some_iff.mp h
      obtain ⟨rfl, rfl⟩ := Prod.mk.inj hp
      exact .sender sender sender' reader a effects hsender
    | _ => cases h
  | reader a =>
    simp only [step] at h
    split at h
    -- the sessions with a reader, in the order of the definition
    · obtain ⟨⟨reader', effects⟩, hreader, hp⟩ := Option.map_eq_some_iff.mp h
      obtain ⟨rfl, rfl⟩ := Prod.mk.inj hp
      exact .reader (.receiving _) _ reader' a effects rfl hreader
    · obtain ⟨⟨reader', effects⟩, hreader, hp⟩ := Option.map_eq_some_iff.mp h
      obtain ⟨rfl, rfl⟩ := Prod.mk.inj hp
      exact .reader (.waiting _ (some _)) _ reader' a effects rfl hreader
    · obtain ⟨⟨reader', effects⟩, hreader, hp⟩ := Option.map_eq_some_iff.mp h
      obtain ⟨rfl, rfl⟩ := Prod.mk.inj hp
      exact .reader (.sending _ (some _)) _ reader' a effects rfl hreader
    · obtain ⟨⟨reader', effects⟩, hreader, hp⟩ := Option.map_eq_some_iff.mp h
      obtain ⟨rfl, rfl⟩ := Prod.mk.inj hp
      exact .reader (.joining _ _) _ reader' a effects rfl hreader
    · obtain ⟨⟨reader', effects⟩, hreader, hp⟩ := Option.map_eq_some_iff.mp h
      obtain ⟨rfl, rfl⟩ := Prod.mk.inj hp
      exact .reader (.panicked (some _)) _ reader' a effects rfl hreader
    · cases h
  | readerDone =>
    simp only [step] at h
    split at h
    · split at h
      · next result hphase =>
        obtain ⟨rfl, rfl⟩ := Prod.mk.inj (Option.some.inj h)
        exact .readerDone _ _ result hphase
      · cases h
    · cases h
  | readerJoined =>
    cases session with
    | joining reader result =>
      obtain ⟨rfl, rfl⟩ := Prod.mk.inj (Option.some.inj h)
      exact .readerJoined reader result
    | _ => cases h

/-- The effects of a session are those of its sender or of its reader. -/
theorem step_effects (h : session.step P participant config w act = some (session', out)) :
    ((∀ a, act ≠ .sender a) ∧ out = []) ∨
    (∃ sender sender' a, session.sender? = some sender ∧ act = .sender a ∧
      Sender.step P participant config sender w a = some (sender', out)) ∨
    (∃ reader reader' a, session.reader? = some reader ∧ act = .reader a ∧
      Reader.step P participant config w reader a = some (reader', out)) := by
  cases steps_of_step h with
  | sender sender sender' reader a out hsender =>
    exact .inr (.inl ⟨sender, sender', a, rfl, rfl, hsender⟩)
  | reader session reader reader' a out halive hreader =>
    exact .inr (.inr ⟨reader, reader', a, halive, rfl, hreader⟩)
  | enter | delayCut | barrier | readerDone | readerJoined => exact .inl ⟨by simp, rfl⟩

theorem step_ofSession (h : session.step P participant config w act = some (session', out)) :
    ∀ e ∈ out, e.OfSession := by
  rcases step_effects h with ⟨-, rfl⟩ | ⟨sender, sender', a, -, -, hsender⟩ |
    ⟨reader, reader', a, -, -, hreader⟩
  · simp
  · exact Sender.step_ofSession hsender
  · exact Reader.step_ofSession hreader

/-- A step of the sender that is alive. -/
def SenderSteps (P : Platform) (participant : ParticipantConfig) (config : AppConfig) (w : World)
    (session : Session) (act : SessionAct) (session' : Session) (out : List Effect) : Prop :=
  ∃ sender reader a sender', session = .sending sender reader ∧ act = .sender a ∧
    sender.step P participant config w a = some (sender', out) ∧
    session' = afterSender reader sender'

/-- The barrier is open and a sender starts. -/
def SenderStarts (config : AppConfig) (w : World) (session session' : Session) : Prop :=
  session.mayStart = true ∧ isReady config w.ready = true ∧ ∃ interval reader,
    emissionInterval config = some interval ∧ 0 < interval ∧
    session' = .sending (Sender.new w.now interval) reader

theorem sender?_of_mayStart (h : session.mayStart = true) : session.sender? = none := by
  cases session <;> first | rfl | cases h

/-- The sender is dropped where it stands, since the reader is done. -/
def SenderDropped (session : Session) (act : SessionAct) (session' : Session) : Prop :=
  ∃ sender reader result, session = .sending sender (some reader) ∧ act = .readerDone ∧
    reader.phase = .returned result ∧ session' = .returned result

/-- A reader does not touch the sender. -/
theorem putReader_sender? (reader : Reader) :
    (session.putReader reader).sender? = session.sender? := by
  cases session with
  | receiving _ => exact afterReader_sender? reader
  | _ => rfl

theorem mayStart_of_putReader {reader : Reader}
    (h : (session.putReader reader).mayStart = true) : session.mayStart = true := by
  cases session with
  | receiving reader' => exact afterReader_mayStart h
  | _ => exact h

/-- **A step of a session** is one of its sender, starts or drops a sender, or is quiet and leaves
the sender alone. -/
theorem step_cases (h : session.step P participant config w act = some (session', out)) :
    SenderSteps P participant config w session act session' out ∨
    (SenderStarts config w session session' ∧ (∃ a, act = .barrier a) ∧ out = []) ∨
    (SenderDropped session act session' ∧ out = []) ∨
    (act.isPassive = true ∧ session'.sender? = session.sender? ∧
      (session'.mayStart = true → session.mayStart = true) ∧ ∀ e ∈ out, e.Quiet) := by
  cases steps_of_step h with
  | enter endsAt hdue => exact .inr (.inr (.inr ⟨rfl, enter_sender?, fun _ => rfl, by simp⟩))
  | delayCut endsAt hover => exact .inr (.inr (.inr ⟨rfl, rfl, fun _ => rfl, by simp⟩))
  | barrier barrier barrier' reader a hbarrier =>
    cases barrier' with
    | returned result =>
      cases result with
      | ready =>
        -- the barrier is open, and the interval may panic
        have hready := BarrierPhase.step_ready hbarrier
        rcases openSender_cases config w reader with ⟨interval, hinterval, hpos, hopen⟩ | hopen
        · exact .inr (.inl ⟨⟨rfl, hready, interval, reader, hinterval, hpos, hopen⟩, ⟨a, rfl⟩,
            rfl⟩)
        · refine .inr (.inr (.inr ⟨rfl, ?_, fun _ => rfl, by simp⟩))
          rw [afterBarrier, hopen]
          rfl
      | timedOut => exact .inr (.inr (.inr ⟨rfl, close_sender? _ _, fun _ => rfl, by simp⟩))
      | stopped => exact .inr (.inr (.inr ⟨rfl, close_sender? _ _, fun _ => rfl, by simp⟩))
    | _ => exact .inr (.inr (.inr ⟨rfl, rfl, fun _ => rfl, by simp⟩))
  | sender sender sender' reader a out hsender =>
    exact .inl ⟨sender, reader, a, sender', rfl, rfl, hsender, rfl⟩
  | reader session reader reader' a out halive hreader =>
    exact .inr (.inr (.inr ⟨rfl, putReader_sender? reader', mayStart_of_putReader,
      Reader.step_quiet hreader⟩))
  | readerDone sender reader result hphase =>
    exact .inr (.inr (.inl ⟨⟨sender, reader, result, rfl, rfl, hphase, rfl⟩, rfl⟩))
  | readerJoined reader result => exact .inr (.inr (.inr ⟨rfl, rfl, id, by simp⟩))

/-- A session goes on while its sender is alive. -/
theorem step_sending {sender sender' : Sender} {reader : Option Reader} {a : SenderAct}
    (h : sender.step P participant config w a = some (sender', out))
    (halive : afterSender reader sender' = .sending sender' reader) :
    (sending sender reader).step P participant config w (.sender a) =
      some (.sending sender' reader, out) := by
  simp only [step, h, Option.map_some, halive]

/-- A session that only receives goes on while its reader is alive. -/
theorem step_receiving {reader reader' : Reader} {a : ReaderAct}
    (h : reader.step P participant config w a = some (reader', out))
    (halive : afterReader reader' = .receiving reader') :
    (receiving reader).step P participant config w (.reader a) =
      some (.receiving reader', out) := by
  simp only [step, h, Option.map_some, halive]

end Session

end TakBench
