import TakBench.Protocol.Reference
import TakBench.Safety
import TakBench.Scenario.Session

/-!
# Every event is counted, or lost

An event that a sender has made is counted as sent when its write is done, and as dropped when its
write fails or the sender leaves. Until then it is uncounted. A step keeps the books, except for
the events that it loses: those of a sender that is dropped where it stands, and those behind a
failed write. So the books of a session balance exactly when no step of it loses an event.

## Main definitions

* `Sender.uncounted`, `Sender.behind`
* `Session.loses`: the events that a step of a session loses

## Main results

* `Sender.step_accounts`, `Session.step_accounts`: the books of one step
* `Session.accounted_iff`: the books of a session balance exactly when no step loses an event
-/

namespace TakBench

variable {P : Platform} {participant : ParticipantConfig} {config : AppConfig}

/-! ## The books of a sender -/

/-- The events of a tick that a flush does not write. -/
def AfterFlush.due : AfterFlush → ℕ
  | .batch => 0
  | .frame _ => 1

namespace Sender

/-- Events made and not yet counted. -/
def uncounted (s : Sender) : ℕ :=
  match s.phase with
  | .selecting => s.batch.events
  | .flushing _ next => s.batch.events + next.due
  | .publishing next => next.due
  | .writingFrame _ => s.batch.events + 1
  | .returned _ => 0

/-- Events that are not part of the write in progress. -/
def behind (s : Sender) : ℕ :=
  match s.phase with
  | .flushing _ next => next.due
  | .writingFrame _ => s.batch.events
  | _ => 0

/-- Events that a step loses: those behind a write that fails. -/
def loses (s : Sender) : SenderAct → ℕ
  | .write act => if act.fails then s.behind else 0
  | _ => 0

/-- The books of a continuation of a sender with `due` uncounted events. -/
def Accounted (due : ℕ) (p : Sender × List Effect) : Prop :=
  due = total Effect.sent p.2 + total Effect.dropped p.2 + p.1.uncounted

variable {s s' : Sender} {w : World} {act : SenderAct} {out : List Effect}

theorem total_recordLocalDrop (events : ℕ) :
    total Effect.sent (recordLocalDrop events) = 0 ∧
      total Effect.dropped (recordLocalDrop events) = events := by
  simp [recordLocalDrop, Effect.sent, Effect.dropped]

theorem total_recordWriteFailure (events : ℕ) (failure : Failure) :
    total Effect.sent (recordWriteFailure events failure) = 0 ∧
      total Effect.dropped (recordWriteFailure events failure) = events := by
  rw [recordWriteFailure]
  split <;> simp [Effect.sent, Effect.dropped]

section Books

variable (P participant config s)

theorem accounted_leave : Accounted s.batch.events s.leave := by
  rw [Accounted, leave, dropBatch]
  split
  · simp [total_recordLocalDrop, uncounted]
  · next hzero => simp [uncounted, Nat.eq_zero_of_not_pos hzero]

theorem accounted_endTick : Accounted s.batch.events (s.endTick config) := by
  rw [endTick]
  split
  · exact accounted_leave s
  · simp [Accounted, uncounted]

/-- A failed flush loses what is behind it. -/
theorem accounted_flushOutcome (next : AfterFlush) (outcome : WriteOutcome) :
    Accounted (s.batch.events + if outcome.isFailed then 0 else next.due)
      (s.flushOutcome next outcome) := by
  cases outcome with
  | pending write => simp [Accounted, flushOutcome, uncounted, WriteOutcome.isFailed]
  | done =>
    simp [Accounted, flushOutcome, uncounted, WriteOutcome.isFailed, Effect.sent, Effect.dropped]
  | failed failure =>
    simp [Accounted, flushOutcome, fail, uncounted, WriteOutcome.isFailed,
      total_recordWriteFailure]

/-- A failed frame loses the batch behind it. -/
theorem accounted_frameOutcome (outcome : WriteOutcome) :
    Accounted (1 + if outcome.isFailed then 0 else s.batch.events)
      (s.frameOutcome config outcome) := by
  cases outcome with
  | pending write => simp [Accounted, frameOutcome, uncounted, WriteOutcome.isFailed, Nat.add_comm]
  | done =>
    have hend := accounted_endTick config s
    simp only [Accounted, frameOutcome, total_cons, Effect.sent, Effect.dropped,
      WriteOutcome.isFailed, Bool.false_eq_true, if_false] at hend ⊢
    omega
  | failed failure =>
    simp [Accounted, frameOutcome, fail, uncounted, WriteOutcome.isFailed,
      total_recordWriteFailure]

theorem accounted_afterFlush (now : Instant) (next : AfterFlush) :
    Accounted (s.batch.events + next.due) (s.afterFlush config now next) := by
  cases next with
  | batch => exact accounted_endTick config s
  | frame bytes =>
    have hframe := accounted_frameOutcome config s (Write.start config bytes now)
    rw [Write.start_isFailed] at hframe
    rw [Nat.add_comm]
    exact hframe

theorem accounted_flush (now : Instant) (next : AfterFlush) :
    Accounted (s.batch.events + next.due) (s.flush config now next) := by
  rw [flush]
  split
  · exact accounted_afterFlush config s now next
  · have hflush := accounted_flushOutcome s next (Write.start config s.batch.bytes now)
    rwa [Write.start_isFailed] at hflush

theorem accounted_append (now : Instant) :
    Accounted s.batch.events (s.append config now) := by
  rw [append]
  split
  · simp [Accounted, overflow, uncounted, total_recordLocalDrop]
  · split
    · exact accounted_flush config s now .batch
    · exact accounted_endTick config s

theorem accounted_dispatch (now : Instant) (utc : OffsetDateTime) (id : Uuid) :
    Accounted (s.batch.events + 1) (s.dispatch P participant config now utc id) := by
  rw [dispatch]
  split
  · next hframe =>
    have hflush := accounted_flush config (s.ticked P participant config now utc id) now
      (.frame (s.eventBytes P participant config utc id))
    simpa [ticked, hframe, AfterFlush.due] using hflush
  · next hframe =>
    have happend := accounted_append config (s.ticked P participant config now utc id) now
    simpa [ticked, hframe, push] using happend

theorem total_delivered {f : Effect → ℕ} (hf : ∀ id, f (.deliver id) = 0) (written n : ℕ) :
    total f (s.delivered written n) = 0 := by
  apply total_eq_zero
  intro e he
  obtain ⟨c, -, rfl⟩ := List.mem_map.mp he
  exact hf c.id

theorem total_publish {f : Effect → ℕ} (hf : ∀ id name sentAt, f (.publish id name sentAt) = 0) :
    total f (s.publish participant) = 0 := by
  apply total_eq_zero
  intro e he
  obtain ⟨c, -, rfl⟩ := List.mem_map.mp he
  exact hf c.id participant.id c.sentAt

end Books

/-- The books of a step that makes no event. -/
theorem Keeps.total_generated {s : Sender} {p : Sender × List Effect} (h : s.Keeps p) :
    total Effect.generated p.2 = 0 :=
  total_generated_of_sends h.sends

/-- The books of a sender that leaves its loop. -/
theorem step_accounts_leave (hphase : s.phase = .selecting) (hloses : s.loses act = 0)
    (h : s.leave = (s', out)) :
    s.uncounted + total Effect.generated out =
      total Effect.sent out + total Effect.dropped out + s'.uncounted + s.loses act := by
  have hbooks := accounted_leave s
  have hnone := s.keeps_leave.total_generated
  have hs : s.uncounted = s.batch.events := by simp only [uncounted, hphase]
  rw [h] at hbooks hnone
  simp only [Accounted] at hbooks hnone
  omega

/-- **The books of one step of a sender.** -/
theorem step_accounts (h : s.step P participant config w act = some (s', out)) :
    s.uncounted + total Effect.generated out =
      total Effect.sent out + total Effect.dropped out + s'.uncounted + s.loses act := by
  cases steps_of_step h with
  | tick utc id hphase hdue hp =>
    have hbooks := accounted_dispatch P participant config s w.now utc id
    have hnone := (s.keeps_dispatch P participant config w.now utc id).total_generated
    have hs : s.uncounted = s.batch.events := by simp only [uncounted, hphase]
    obtain ⟨rfl, rfl⟩ := Prod.mk.inj hp
    simp only [Accounted] at hbooks
    simp only [total_cons, Effect.generated, Effect.sent, Effect.dropped, loses, hs]
    omega
  | stopped hphase _ hp | deadline hphase _ hp =>
    exact step_accounts_leave hphase rfl hp.symm
  | flush act write next outcome bytes hphase hwrite hp =>
    -- a write that fails drops the batch, and loses the frame behind it
    have hbooks := accounted_flushOutcome s next outcome
    have hnone := (s.keeps_flushOutcome next outcome).total_generated
    have hsent := s.total_delivered (f := Effect.sent) (fun _ => rfl) write.written bytes.length
    have hdropped := s.total_delivered (f := Effect.dropped) (fun _ => rfl) write.written
      bytes.length
    have hgenerated := total_generated_of_sends (s.delivered_sends write.written bytes.length)
    have hs : s.uncounted = s.batch.events + next.due := by simp only [uncounted, hphase]
    have hbehind : s.behind = next.due := by simp only [behind, hphase]
    obtain ⟨rfl, rfl⟩ := Prod.mk.inj hp
    rw [Accounted, Write.step_isFailed hwrite] at hbooks
    simp only [List.cons_append, total_cons, total_append, Effect.generated, Effect.sent,
      Effect.dropped, loses, hs, hbehind, hgenerated, hsent, hdropped, hnone]
    split at hbooks <;> simp only [*, if_true, if_false, Bool.false_eq_true] <;> omega
  | frame act write outcome bytes hphase hwrite hp =>
    have hbooks := accounted_frameOutcome config s outcome
    have hnone := (s.keeps_frameOutcome config outcome).total_generated
    have hs : s.uncounted = s.batch.events + 1 := by simp only [uncounted, hphase]
    have hbehind : s.behind = s.batch.events := by simp only [behind, hphase]
    obtain ⟨rfl, rfl⟩ := Prod.mk.inj hp
    rw [Accounted, Write.step_isFailed hwrite] at hbooks
    simp only [total_cons, Effect.generated, Effect.sent, Effect.dropped, loses, hs, hbehind,
      hnone]
    split at hbooks <;> simp only [*, if_true, if_false, Bool.false_eq_true] <;> omega
  | publish next hphase hp =>
    -- the batch is counted already, and only the frame behind it is due
    have hbooks := accounted_afterFlush config { s with batch := {} } w.now next
    have hnone := (keeps_afterFlush config { s with batch := {} } w.now next).total_generated
    have hsent := total_publish participant s (f := Effect.sent) fun _ _ _ => rfl
    have hdropped := total_publish participant s (f := Effect.dropped) fun _ _ _ => rfl
    have hgenerated := total_generated_of_sends (publish_sends participant s)
    have hs : s.uncounted = next.due := by simp only [uncounted, hphase]
    obtain ⟨rfl, rfl⟩ := Prod.mk.inj hp
    simp only [Accounted] at hbooks
    simp only [total_append, loses, hs]
    omega

end Sender

/-! ## The books of a session -/

namespace Session

/-- Events made and not yet counted. -/
def uncounted (session : Session) : ℕ := session.sender?.elim 0 Sender.uncounted

/-- Events that a step loses: those that a sender holds when the reader ends the session, and those
behind a write that fails. -/
def loses (session : Session) : SessionAct → ℕ
  | .readerDone => session.uncounted
  | .sender act => session.sender?.elim 0 fun sender => sender.loses act
  | _ => 0

variable {w : World} {session session' : Session} {act : SessionAct} {out : List Effect}

theorem uncounted_of_none (h : session.sender? = none) : session.uncounted = 0 := by
  rw [uncounted, h]
  rfl

theorem uncounted_close (result : Except Failure Unit) (reader : Option Reader) :
    (close result reader).uncounted = 0 :=
  uncounted_of_none (close_sender? _ _)

theorem uncounted_afterSender (reader : Option Reader) (sender : Sender) :
    (afterSender reader sender).uncounted = sender.uncounted := by
  rw [afterSender]
  split
  · next result hphase => rw [uncounted_close, Sender.uncounted, hphase]
  · rfl

/-- **The books of one step of a session.** -/
theorem step_accounts (h : session.step P participant config w act = some (session', out)) :
    session.uncounted + total Effect.generated out =
      total Effect.sent out + total Effect.dropped out + session'.uncounted +
        session.loses act := by
  rcases step_cases h with ⟨sender, reader, a, sender', rfl, rfl, hsender, rfl⟩ |
    ⟨⟨hmay, -, interval, reader, -, -, rfl⟩, -, rfl⟩ |
    ⟨⟨sender, reader, result, rfl, rfl, -, rfl⟩, rfl⟩ | ⟨hpassive, hsame, -, hquiet⟩
  · rw [uncounted_afterSender]
    exact Sender.step_accounts hsender
  · -- a sender that starts holds nothing
    have hnone := sender?_of_mayStart hmay
    have hloses : session.loses act = 0 := by
      cases act <;> simp [loses, uncounted, hnone]
    rw [hloses, uncounted_of_none hnone]
    rfl
  · -- a sender that is dropped loses what it holds
    simp [uncounted, loses, sender?]
  · obtain ⟨hgenerated, -, hsent, hdropped⟩ := total_eq_zero_of_quiet hquiet
    have hloses : session.loses act = 0 := by
      cases act with
      | sender a => cases hpassive
      | readerDone => cases hpassive
      | _ => rfl
    rw [hgenerated, hsent, hdropped, hloses, uncounted, uncounted, hsame]
    omega

/-- The books of a run up to now. -/
def Balanced (s : Session × List Effect) : Prop :=
  total Effect.generated s.2 =
    total Effect.sent s.2 + total Effect.dropped s.2 + s.1.uncounted

/-- Events are missing from the books of a run. -/
def Short (s : Session × List Effect) : Prop :=
  total Effect.sent s.2 + total Effect.dropped s.2 + s.1.uncounted <
    total Effect.generated s.2

variable {s t : Session × List Effect} {i : World × SessionAct}

theorem step_total (h : (component P participant config).logged.step s i = some t) :
    total Effect.sent t.2 + total Effect.dropped t.2 + t.1.uncounted + s.1.loses i.2 +
        total Effect.generated s.2 =
      total Effect.sent s.2 + total Effect.dropped s.2 + s.1.uncounted +
        total Effect.generated t.2 := by
  obtain ⟨out, hstep, hlog⟩ := Component.logged_step.mp h
  have hbooks := step_accounts hstep
  rw [hlog, total_append, total_append, total_append]
  omega

theorem balanced_step (hs : Balanced s) (hloses : s.1.loses i.2 = 0)
    (h : (component P participant config).logged.step s i = some t) : Balanced t := by
  have hstep := step_total h
  rw [Balanced] at hs ⊢
  omega

theorem short_step (hs : Short s)
    (h : (component P participant config).logged.step s i = some t) : Short t := by
  have hstep := step_total h
  rw [Short] at hs ⊢
  omega

theorem start_uncounted (w : World) : (start participant config w).uncounted = 0 :=
  uncounted_of_none start_sender?

/-- **No event is unaccounted for** at the end of a session, exactly when no step of it loses one:
the reader never ends the session while the sender holds events that are not counted yet, and no
write fails with an event behind it. -/
theorem accounted_iff {w : World} {inputs : List (World × SessionAct)} {log : List Effect}
    {result : Except Failure Unit}
    (h : (component P participant config).logged.exec (start participant config w, []) inputs =
      some (.returned result, log)) :
    total Effect.generated log = total Effect.sent log + total Effect.dropped log ↔
      (component P participant config).logged.Along (fun s i => s.1.loses i.2 = 0)
        (start participant config w, []) inputs := by
  have hstart : Balanced (start participant config w, []) := by
    rw [Balanced, start_uncounted]
    rfl
  constructor
  · intro hbooks
    by_contra halong
    -- the books are short after the first step that loses an event, and stay so
    obtain ⟨before, i, after, u, v, rfl, hbefore, hbalanced, hloses, hstep, hafter⟩ :=
      Machine.exists_violation halong h
    have hu := Machine.exec_invariant_along (fun _ _ _ => balanced_step) hbalanced hstart hbefore
    have hv : Short v := by
      have htotal := step_total hstep
      rw [Balanced] at hu
      rw [Short]
      omega
    have hend := Machine.exec_invariant (fun _ _ _ => short_step) hv hafter
    simp only [Short] at hend
    omega
  · intro halong
    have hend := Machine.exec_invariant_along (fun _ _ _ => balanced_step) halong hstart h
    rw [Balanced] at hend
    rw [hend]
    rfl

/-! ## A pending batch at the end of a session -/

namespace Pending

/-- A participant that sends and receives. -/
def peer : ParticipantConfig := { id := "peer" }

/-- Batches of two events. -/
def pairs : AppConfig where
  authorization := { acknowledged := true }
  participants := [peer]
  scenario := { fragmentation := { eventsPerWrite := 2 } }

/-- The world at a time. -/
def world (now : Instant) : World := { World.initial false with now }

/-- One event is pending when the peer closes the connection. -/
def closing : List (World × SessionAct) :=
  [(world 0, .barrier .check), (world 0, .reader .started),
    (world 30000000000, .sender (.tick 0 7)), (world 30000000000, .reader .peerClosed),
    (world 30000000000, .readerDone)]

/-- One event is pending at the deadline of the run. -/
def expiring : List (World × SessionAct) :=
  [(world 0, .barrier .check), (world 0, .reader .started),
    (world 30000000000, .sender (.tick 0 7)), (world 120000000000, .sender .deadline),
    (world 120000000000, .readerJoined)]

/-- The sender with the pending event. -/
def holding (bytes : List UInt8) : Sender :=
  { (Sender.new 0 30000000000).withPosition bytes 7 30000000000 with phase := .selecting }

/-- The reader before its first read. -/
def reading : Reader := Reader.start peer pairs (world 0)

/-- The reader after the peer has closed the connection. -/
def closed : Reader := reading.finish (.error [.runtime .peerClosed])

variable {P : Platform} {bytes : List UInt8} {inputs : List (World × SessionAct)}
  {t : Session × List Effect}

/-- The session up to the pending event. -/
theorem exec_pending (hbytes : Utf8.asBytes (positionXml P peer pairs 0 7) = bytes)
    (hlimit : bytes.length ≤ 8 * 1024 * 1024)
    (h : (component P peer pairs).logged.exec
      (.sending (holding bytes) (some reading), [.generate (some 7)]) inputs = some t) :
    (component P peer pairs).logged.exec (start peer pairs (World.initial false), [])
      ((world 0, .barrier .check) :: (world 0, .reader .started) ::
        (world 30000000000, .sender (.tick 0 7)) :: inputs) = some t := by
  have hroom : (Sender.new 0 30000000000).tick P peer pairs 30000000000 0 7 =
      (holding bytes, [.generate (some 7)]) :=
    Sender.tick_of_room rfl rfl hbytes (by simpa [Sender.new] using hlimit) (by decide)
  have htick : (Sender.new 0 30000000000).step P peer pairs (world 30000000000) (.tick 0 7) =
      some (holding bytes, [.generate (some 7)]) := congrArg some hroom
  have hopen : (component P peer pairs).logged.step
      (start peer pairs (World.initial false), []) (world 0, .barrier .check) =
      some (.sending (Sender.new 0 30000000000) (some Reader.spawn), []) := rfl
  have hstarted : (component P peer pairs).logged.step
      (.sending (Sender.new 0 30000000000) (some Reader.spawn), []) (world 0, .reader .started) =
      some (.sending (Sender.new 0 30000000000) (some reading), []) := rfl
  have hticked : (component P peer pairs).logged.step
      (.sending (Sender.new 0 30000000000) (some reading), [])
      (world 30000000000, .sender (.tick 0 7)) =
      some (.sending (holding bytes) (some reading), [.generate (some 7)]) := by
    simp only [Component.logged, component, step, htick, Option.map_some]
    rfl
  exact Machine.exec_step hopen (Machine.exec_step hstarted (Machine.exec_step hticked h))

/-- The peer closes: the event is neither sent nor dropped. -/
theorem exec_closing (hbytes : Utf8.asBytes (positionXml P peer pairs 0 7) = bytes)
    (hlimit : bytes.length ≤ 8 * 1024 * 1024) :
    (component P peer pairs).logged.exec (start peer pairs (World.initial false), []) closing =
      some (.returned (.error [.runtime .peerClosed]), [.generate (some 7)]) := by
  have hclosed : (component P peer pairs).logged.step
      (.sending (holding bytes) (some reading), [.generate (some 7)])
      (world 30000000000, .reader .peerClosed) =
      some (.sending (holding bytes) (some closed), [.generate (some 7)]) := rfl
  have hdone : (component P peer pairs).logged.step
      (.sending (holding bytes) (some closed), [.generate (some 7)])
      (world 30000000000, .readerDone) =
      some (.returned (.error [.runtime .peerClosed]), [.generate (some 7)]) := rfl
  exact exec_pending hbytes hlimit (Machine.exec_step hclosed (Machine.exec_step hdone rfl))

/-- The deadline: the event is dropped, and counted. -/
theorem exec_expiring (hbytes : Utf8.asBytes (positionXml P peer pairs 0 7) = bytes)
    (hlimit : bytes.length ≤ 8 * 1024 * 1024) :
    (component P peer pairs).logged.exec (start peer pairs (World.initial false), []) expiring =
      some (.returned (.ok ()), .generate (some 7) :: recordLocalDrop 1) := by
  have hdeadline : (component P peer pairs).logged.step
      (.sending (holding bytes) (some reading), [.generate (some 7)])
      (world 120000000000, .sender .deadline) =
      some (.joining reading (.ok ()), .generate (some 7) :: recordLocalDrop 1) := rfl
  have hjoined : (component P peer pairs).logged.step
      (.joining reading (.ok ()), .generate (some 7) :: recordLocalDrop 1)
      (world 120000000000, .readerJoined) =
      some (.returned (.ok ()), .generate (some 7) :: recordLocalDrop 1) := rfl
  exact exec_pending hbytes hlimit (Machine.exec_step hdeadline (Machine.exec_step hjoined rfl))

end Pending

/-- No event is lost in a session that ends at the deadline. -/
theorem accounted_iff_expiring :
    (component Reference.platform Pending.peer Pending.pairs).logged.Along
      (fun s i => s.1.loses i.2 = 0)
      (start Pending.peer Pending.pairs (World.initial false), []) Pending.expiring :=
  (accounted_iff (Pending.exec_expiring rfl (Reference.length_toXml_le_limit (by decide)))).mp
    (by decide)

/-- A session of an accepted configuration that ends with an event unaccounted for. -/
theorem event_unaccounted_for :
    validateWithOptions Pending.pairs {} = .ok () ∧ Pending.peer ∈ participants Pending.pairs ∧
      ∃ inputs result log,
        (component Reference.platform Pending.peer Pending.pairs).logged.exec
          (start Pending.peer Pending.pairs (World.initial false), []) inputs =
            some (.returned result, log) ∧
        total Effect.generated log ≠ total Effect.sent log + total Effect.dropped log :=
  ⟨by decide, by simp [participants, Pending.pairs], Pending.closing, _, _,
    Pending.exec_closing rfl (Reference.length_toXml_le_limit (by decide)), by decide⟩

end Session

end TakBench
