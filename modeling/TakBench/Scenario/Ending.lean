import TakBench.Scenario.Deadline
import TakBench.Scenario.Joining
import TakBench.TimeRange

/-!
# A run comes to its end

Each `select!` of a participant watches the stop signal and the deadline of the run, the barrier
watches its own deadline, and a write has a timeout. So once the tasks are stopped, or both
deadlines have passed, a server that says nothing more can hold up the run only by a write that is
in progress, and no longer than the timeout of a write.

## Main definitions

* `Released`: the tasks are stopped, or both deadlines have passed
* `RunAct.isWork`: the acts of the tasks and of the main task, without the clock and the signals
* `Sender.write?`: the write in progress
* `Participant.Draining`: nothing is left but a write that began before

## Main results

* `Participant.exists_internal_of_released`: a participant that is released goes on, or writes
* `Run.exists_work`: a run that is released and not over goes on, or waits for a write
* `Run.draining_step`: once nothing is left but a write, nothing else begins
-/

namespace TakBench

variable {P : Platform} {participant : ParticipantConfig} {config : AppConfig} {w : World}
  {out : List Effect}

/-- Nobody waits any longer: the tasks are stopped, or both deadlines have passed. -/
def Released (config : AppConfig) (w : World) : Prop :=
  w.stop = true ∨ config.run.duration ≤ w.now ∧ barrierDeadline config ≤ w.now

/-- Who is released at the end of the run is past its deadline, or stopped. -/
theorem Released.over (h : Released config w) : w.stop = true ∨ config.run.duration ≤ w.now :=
  h.imp_right And.left

/-! ## Who is released goes on -/

theorem BarrierPhase.exists_step_of_released {barrier : BarrierPhase}
    (hbarrier : barrier.isReturned = false) (h : Released config w) :
    ∃ act barrier', barrier.step config w act = some barrier' := by
  rcases h with hstop | ⟨-, hdue⟩
  · cases barrier with
    | checking => exact ⟨.check, _, rfl⟩
    | unarmed => exact ⟨.arm, _, rfl⟩
    | armed seen => exact ⟨.stopped, .returned .stopped, if_pos hstop⟩
    | returned result => cases hbarrier
  · exact exists_step hbarrier hdue

/-- A reader is cut while it waits, and goes on with what it has read. -/
theorem Reader.exists_internal {reader : Reader} (P : Platform) (participant : ParticipantConfig)
    (hreader : ∀ result, reader.phase ≠ .returned result) (h : Released config w) :
    ∃ act, act.isInternal = true ∧ ∃ q, reader.step P participant config w act = some q := by
  have hcut (hsome : reader.cut.isSome) : ∃ act, ReaderAct.isInternal act = true ∧
      ∃ q, reader.step P participant config w act = some q := by
    obtain ⟨q, hq⟩ := Option.isSome_iff_exists.mp hsome
    rcases h.over with hstop | hdue
    · exact ⟨.stopped, rfl, q, (if_pos hstop).trans hq⟩
    · exact ⟨.deadline, rfl, q, (if_pos hdue).trans hq⟩
  obtain ⟨decoder, phase⟩ := reader
  cases phase with
  | pausing endsAt => exact hcut rfl
  | reading since => exact hcut rfl
  | delaying endsAt bytes => exact hcut rfl
  | spawned => exact ⟨.started, rfl, _, rfl⟩
  | recording raws =>
    refine ⟨.inspected, rfl, ?_⟩
    cases raws with
    | nil => exact ⟨_, rfl⟩
    | cons raw raws =>
      simp only [step]
      split
      · exact ⟨_, rfl⟩
      · split <;> exact ⟨_, rfl⟩
  | locking id raws => exact ⟨.recorded, rfl, _, rfl⟩
  | returned result => exact absurd rfl (hreader result)

/-- The write in progress. -/
def Sender.write? (s : Sender) : Option Write :=
  match s.phase with
  | .flushing write _ => some write
  | .writingFrame write => some write
  | _ => none

/-- A sender leaves its loop, or its write times out. -/
theorem Sender.exists_internal {s : Sender} (P : Platform) (participant : ParticipantConfig)
    (hs : ∀ result, s.phase ≠ .returned result) (h : Released config w)
    (hwrite : ∀ write ∈ s.write?, write.since + config.timeouts.write ≤ w.now) :
    ∃ act, act.isInternal = true ∧ ∃ q, s.step P participant config w act = some q := by
  have htimeout (write : Write) (hdue : write.since + config.timeouts.write ≤ w.now) :
      write.step config w.now .timedOut =
        some (.failed [.message "write timed out", .elapsed], []) := if_pos hdue
  obtain ⟨interval, nextTick, batch, eventCount, phase⟩ := s
  cases phase with
  | selecting =>
    rcases h.over with hstop | hdue
    · exact ⟨.stopped, rfl, _, if_pos hstop⟩
    · exact ⟨.deadline, rfl, _, if_pos hdue⟩
  | flushing write next =>
    refine ⟨.write .timedOut, rfl, ?_⟩
    simp only [step, htimeout write (hwrite write rfl), Option.map_some]
    exact ⟨_, rfl⟩
  | writingFrame write =>
    refine ⟨.write .timedOut, rfl, ?_⟩
    simp only [step, htimeout write (hwrite write rfl), Option.map_some]
    exact ⟨_, rfl⟩
  | publishing next => exact ⟨.published, rfl, _, rfl⟩
  | returned result => exact absurd rfl (hs result)

/-- Nobody in the session has returned before the session itself. -/
def Session.Awake : Session → Prop
  | .receiving reader => ∀ result, reader.phase ≠ .returned result
  | .waiting barrier _ => barrier.isReturned = false
  | .sending sender _ => ∀ result, sender.phase ≠ .returned result
  | _ => True

/-- A session that is neither over nor left by a panic goes on. -/
theorem Session.exists_internal {session : Session} (P : Platform)
    (participant : ParticipantConfig) (hawake : session.Awake)
    (hover : ∀ result, session ≠ .returned result) (hpanic : ∀ reader, session ≠ .panicked reader)
    (h : Released config w)
    (hwrite : ∀ s ∈ session.sender?, ∀ write ∈ s.write?,
      write.since + config.timeouts.write ≤ w.now) :
    ∃ act, act.isInternal = true ∧ ∃ q, session.step P participant config w act = some q := by
  cases session with
  | slowConnecting endsAt => exact ⟨.delayCut, rfl, _, if_pos h.over⟩
  | receiving reader =>
    obtain ⟨act, hact, ⟨reader', effects⟩, hq⟩ := Reader.exists_internal P participant hawake h
    refine ⟨.reader act, hact, ?_⟩
    simp only [step, hq, Option.map_some]
    exact ⟨_, rfl⟩
  | waiting barrier reader =>
    obtain ⟨act, barrier', hq⟩ := BarrierPhase.exists_step_of_released hawake h
    refine ⟨.barrier act, rfl, ?_⟩
    simp only [step, hq, Option.map_some]
    exact ⟨_, rfl⟩
  | sending sender reader =>
    obtain ⟨act, hact, ⟨sender', effects⟩, hq⟩ :=
      Sender.exists_internal P participant hawake h (hwrite sender rfl)
    refine ⟨.sender act, hact, ?_⟩
    simp only [step, hq, Option.map_some]
    exact ⟨_, rfl⟩
  | joining reader result => exact ⟨.readerJoined, rfl, _, rfl⟩
  | returned result => exact absurd rfl (hover result)
  | panicked reader => exact absurd rfl (hpanic reader)

namespace Participant

variable {p p' : Participant} {act : ParticipantAct}

/-- A factor of one is in the range of the jitter. -/
theorem isJitter_one (config : AppConfig) : isJitter config 1 = true := by
  have hnonneg : 0 ≤ jitter config := jitter_nonneg
  have hlower : 1 - jitter config ≤ 1 := by linarith
  have hupper : 1 ≤ 1 + jitter config := by linarith
  exact (Bool.and_eq_true _ _).mpr ⟨decide_eq_true hlower, decide_eq_true hupper⟩

/-- **A participant that is released goes on**, or it is done, or a write is in progress. -/
theorem exists_internal_of_released (P : Platform) (participant : ParticipantConfig)
    (hp : p.result? = none) (hawake : ∀ session ∈ p.session?, session.Awake)
    (h : Released config w)
    (hwrite : ∀ s ∈ p.sender?, ∀ write ∈ s.write?,
      write.since + config.timeouts.write ≤ w.now) :
    ∃ act, act.isInternal = true ∧ ∃ q, p.step P participant config w act = some q := by
  have hover : (w.stop || decide (config.run.duration ≤ w.now)) = true := by
    rw [Bool.or_eq_true, decide_eq_true_eq]
    exact h.over
  obtain ⟨phase, attempt, recoveryStarted⟩ := p
  cases phase with
  | spawned delay =>
    refine ⟨.start, rfl, ?_⟩
    simp only [step]
    split <;> exact ⟨_, rfl⟩
  | ramping endsAt => exact ⟨.delayCut, rfl, _, if_pos hover⟩
  | looping => exact ⟨.enterLoop, rfl, _, if_pos hover⟩
  | dialing =>
    rcases h.over with hstop | hdue
    · exact ⟨.dialStopped, rfl, _, if_pos hstop⟩
    · exact ⟨.dialDeadline, rfl, _, if_pos hdue⟩
  | sampling sample => exact ⟨.sampled, rfl, exists_sampled P participant config w rfl⟩
  | marking => exact ⟨.marked, rfl, _, rfl⟩
  | notifying => exact ⟨.notified, rfl, _, rfl⟩
  | connected session =>
    cases session with
    | returned result => exact ⟨.sessionOver, rfl, _, rfl⟩
    | panicked reader => cases hp
    | _ =>
      obtain ⟨act, hact, ⟨session', effects⟩, hq⟩ := Session.exists_internal P participant
        (hawake _ rfl) (by simp) (by simp) h (hwrite · ·)
      refine ⟨.session act, hact, ?_⟩
      simp only [step, hq, Option.map_some]
      exact ⟨_, rfl⟩
  | retrying failure => exact ⟨.retry 1, rfl, _, if_pos (isJitter_one config)⟩
  | backingOff endsAt failure => exact ⟨.delayCut, rfl, _, if_pos hover⟩
  | returned result => cases hp
  | panicked => cases hp

end Participant

/-! ## Sessions whose parts are alive -/

namespace Session

variable {session session' : Session} {act : SessionAct}

theorem awake_afterReader (reader : Reader) : (afterReader reader).Awake := by
  rw [afterReader]
  split
  · trivial
  · next hphase => exact fun result h => hphase result h

theorem awake_enter : (enter participant config w).Awake := by
  rw [enter]
  split
  · exact awake_afterReader _
  · rfl
  · rfl

theorem awake_start : (start participant config w).Awake := by
  rw [start]
  split
  · split <;> trivial
  · exact awake_enter

theorem awake_close (result : Except Failure Unit) (reader : Option Reader) :
    (close result reader).Awake := by
  cases reader <;> trivial

theorem awake_afterBarrier (reader : Option Reader) (barrier : BarrierPhase) :
    (afterBarrier config w reader barrier).Awake := by
  unfold afterBarrier
  split
  · rcases openSender_cases config w reader with ⟨interval, -, -, hopen⟩ | hopen
    · rw [hopen]
      exact fun result h => by cases h
    · rw [hopen]
      trivial
  · exact awake_close _ _
  · next hreturned =>
    cases barrier with
    | returned result => exact absurd rfl (hreturned result)
    | _ => rfl

theorem awake_afterSender (reader : Option Reader) (sender : Sender) :
    (afterSender reader sender).Awake := by
  rw [afterSender]
  split
  · exact awake_close _ _
  · next hphase => exact fun result h => hphase result h

theorem awake_putReader (reader : Reader) (h : session.Awake) :
    (session.putReader reader).Awake := by
  cases session with
  | receiving _ => exact awake_afterReader reader
  | _ => exact h

theorem awake_step (hawake : session.Awake)
    (h : session.step P participant config w act = some (session', out)) : session'.Awake := by
  cases steps_of_step h with
  | enter => exact awake_enter
  | barrier barrier barrier' reader => exact awake_afterBarrier reader barrier'
  | sender sender sender' reader => exact awake_afterSender reader sender'
  | reader session reader reader' => exact awake_putReader reader' hawake
  | delayCut | readerDone | readerJoined => trivial

end Session

/-- The sessions of all participants are awake. -/
theorem Participant.awake_step {p p' : Participant} {act : ParticipantAct}
    (hp : ∀ session ∈ p.session?, session.Awake)
    (h : p.step P participant config w act = some (p', out)) :
    ∀ session ∈ p'.session?, session.Awake := by
  intro session' hsession'
  cases steps_of_step h with
  | session session _ a out hphase hstep =>
    obtain rfl := Option.some.inj hsession'
    refine Session.awake_step (hp session ?_) hstep
    rw [session?, hphase]
    rfl
  | openSession | notified =>
    obtain rfl := Option.some.inj hsession'
    exact Session.awake_start
  | sessionOver result =>
    cases (session?_of_isBetween (isBetween_afterSession result)).symm.trans hsession'
  | enter => cases (session?_of_isBetween isBetween_enter).symm.trans hsession'
  | retry factor failure =>
    cases (session?_of_isBetween (isBetween_retry failure factor)).symm.trans hsession'
  | _ => cases hsession'

/-! ## Writes in progress -/

theorem Write.since_start {bytes : List UInt8} {now : Instant} {write : Write}
    (h : Write.start config bytes now = .pending write) : write.since = now := by
  rw [Write.start] at h
  split at h
  · cases h
  · obtain rfl := WriteOutcome.pending.inj h
    rfl

theorem Write.since_step {now : Instant} {write write' : Write} {act : WriteAct}
    {bytes : List UInt8} (h : write.step config now act = some (.pending write', bytes)) :
    write'.since = write.since ∨ write'.since = now := by
  cases act with
  | wrote n =>
    simp only [Write.step] at h
    split at h
    · cases h
    · simp only [Option.ite_none_right_eq_some, Option.some.injEq, Prod.mk.injEq] at h
      obtain rfl := WriteOutcome.pending.inj h.2.1
      exact .inl rfl
  | flushed =>
    simp only [Write.step] at h
    split at h
    · cases h
    · obtain rfl := WriteOutcome.pending.inj (Prod.mk.inj (Option.some.inj h)).1
      exact .inr rfl
    · cases h
  | failed context isInvalidData => cases h
  | timedOut =>
    simp only [Write.step, Option.ite_none_right_eq_some, Option.some.injEq, Prod.mk.injEq] at h
    cases h.2.1

/-- The write in progress began before. -/
def Sender.WritesSince (bound : Instant) (s : Sender) : Prop :=
  ∀ write ∈ s.write?, write.since ≤ bound

namespace Sender

variable {s s' : Sender} {act : SenderAct}

theorem writesSince_of_none {bound : Instant} (h : s.write? = none) : s.WritesSince bound := by
  intro write hwrite
  rw [h] at hwrite
  cases hwrite

theorem write?_endTick : (s.endTick config).1.write? = none := by
  rw [endTick]
  split <;> rfl

variable {now : Instant}

theorem writesSince_flushOutcome {next : AfterFlush} {outcome : WriteOutcome}
    (h : ∀ write, outcome = .pending write → write.since ≤ now) :
    (s.flushOutcome next outcome).1.WritesSince now := by
  cases outcome with
  | pending write =>
    rintro write' hwrite'
    obtain rfl := Option.some.inj hwrite'
    exact h write rfl
  | done => exact writesSince_of_none rfl
  | failed failure => exact writesSince_of_none rfl

theorem writesSince_frameOutcome {outcome : WriteOutcome}
    (h : ∀ write, outcome = .pending write → write.since ≤ now) :
    (s.frameOutcome config outcome).1.WritesSince now := by
  cases outcome with
  | pending write =>
    rintro write' hwrite'
    obtain rfl := Option.some.inj hwrite'
    exact h write rfl
  | done => exact writesSince_of_none write?_endTick
  | failed failure => exact writesSince_of_none rfl

theorem writesSince_afterFlush (next : AfterFlush) :
    (s.afterFlush config now next).1.WritesSince now := by
  cases next with
  | batch => exact writesSince_of_none write?_endTick
  | frame bytes => exact writesSince_frameOutcome fun write h => (Write.since_start h).le

theorem writesSince_flush (next : AfterFlush) : (s.flush config now next).1.WritesSince now := by
  rw [flush]
  split
  · exact writesSince_afterFlush next
  · exact writesSince_flushOutcome fun write h => (Write.since_start h).le

theorem writesSince_dispatch (utc : OffsetDateTime) (id : Uuid) :
    (s.dispatch P participant config now utc id).1.WritesSince now := by
  rw [dispatch]
  split
  · exact writesSince_flush _
  · rw [append]
    split
    · exact writesSince_of_none rfl
    · split
      · exact writesSince_flush _
      · exact writesSince_of_none write?_endTick

/-- **A write begins when it is started**, and each fragment anew. -/
theorem writesSince_step (hs : s.WritesSince w.now)
    (h : s.step P participant config w act = some (s', out)) : s'.WritesSince w.now := by
  have hpending {write : Write} {a : WriteAct} {outcome : WriteOutcome} {bytes : List UInt8}
      (hmem : write ∈ s.write?) (hwrite : write.step config w.now a = some (outcome, bytes)) :
      ∀ write', outcome = .pending write' → write'.since ≤ w.now := by
    rintro write' rfl
    rcases Write.since_step hwrite with hsame | hnow
    · exact hsame.trans_le (hs write hmem)
    · exact hnow.le
  cases steps_of_step h with
  | tick utc id hphase hdue hp =>
    obtain ⟨rfl, -⟩ := Prod.mk.inj hp
    exact writesSince_dispatch utc id
  | stopped _ _ hp | deadline _ _ hp =>
    obtain ⟨rfl, -⟩ := Prod.mk.inj hp
    exact writesSince_of_none rfl
  | flush a write next outcome bytes hphase hwrite hp =>
    obtain ⟨rfl, -⟩ := Prod.mk.inj hp
    have hmem : write ∈ s.write? := by
      rw [write?, hphase]
      rfl
    exact writesSince_flushOutcome (hpending hmem hwrite)
  | frame a write outcome bytes hphase hwrite hp =>
    obtain ⟨rfl, -⟩ := Prod.mk.inj hp
    have hmem : write ∈ s.write? := by
      rw [write?, hphase]
      rfl
    exact writesSince_frameOutcome (hpending hmem hwrite)
  | publish next hphase hp =>
    obtain ⟨rfl, -⟩ := Prod.mk.inj hp
    exact writesSince_afterFlush next

/-- A write that waits for nothing from outside is given up. -/
theorem alive?_of_internal {write : Write} (hwrite : s.write? = some write)
    (hact : act.isInternal = true) (h : s.step P participant config w act = some (s', out)) :
    Session.alive? s' = none := by
  have hnot {phase : SenderPhase} (hphase : s.phase = phase)
      (hnone : ({ s with phase } : Sender).write? = none) : False := by
    subst hphase
    cases hnone.symm.trans hwrite
  cases steps_of_step h with
  | tick utc id hphase => exact (hnot hphase rfl).elim
  | stopped hphase => exact (hnot hphase rfl).elim
  | deadline hphase => exact (hnot hphase rfl).elim
  | publish next hphase => exact (hnot hphase rfl).elim
  | flush a write next outcome bytes hphase hstep hp =>
    obtain ⟨rfl, -⟩ := Prod.mk.inj hp
    cases a with
    | timedOut =>
      cases outcome with
      | failed failure => rfl
      | _ => cases Write.step_isFailed hstep
    | _ => cases hact
  | frame a write outcome bytes hphase hstep hp =>
    obtain ⟨rfl, -⟩ := Prod.mk.inj hp
    cases a with
    | timedOut =>
      cases outcome with
      | failed failure => rfl
      | _ => cases Write.step_isFailed hstep
    | _ => cases hact

end Sender

/-! ## What is left of a run that is released -/

/-- The sender of the participant, if it has one, writes since before, and none is started. -/
structure Participant.Draining (bound : Instant) (p : Participant) : Prop where
  mayStart : p.mayStart = false
  sender : ∀ s ∈ p.sender?, ∃ write, s.write? = some write ∧ write.since ≤ bound

/-- **A participant that drains goes on to do so** when nothing comes from outside. -/
theorem Participant.Draining.step {bound : Instant} {p p' : Participant} {act : ParticipantAct}
    (hp : p.Draining bound) (hact : act.isInternal = true)
    (h : p.step P participant config w act = some (p', out)) : p'.Draining bound := by
  rcases sender_cases h with ⟨s, s', a, rfl, hs, hstep, hs', hmay⟩ |
    ⟨interval, -, hmay, -, -, -, -, -, -⟩ | ⟨s, -, -, hs', hmay, -⟩ | ⟨-, hsame, hmay, -⟩
  · -- only the timeout of the write is left to the sender
    obtain ⟨write, hwrite, -⟩ := hp.sender s hs
    refine ⟨hmay, fun s'' hs'' => ?_⟩
    rw [hs', Sender.alive?_of_internal hwrite hact hstep] at hs''
    cases hs''
  · rw [hp.mayStart] at hmay
    cases hmay
  · refine ⟨hmay, fun s'' hs'' => ?_⟩
    rw [hs'] at hs''
    cases hs''
  · refine ⟨?_, hsame ▸ hp.sender⟩
    by_contra hstarts
    rcases hmay (Bool.of_not_eq_false hstarts) with hmay | ⟨handshakeTime, rfl⟩
    · rw [hp.mayStart] at hmay
      cases hmay
    · cases hact

/-- A participant that is done has nothing left. -/
theorem Participant.draining_of_result {p : Participant} {result : Option (Except Failure Unit)}
    (h : p.result? = some result) (bound : Instant) : p.Draining bound := by
  refine ⟨?_, fun s hs => ?_⟩
  · obtain ⟨phase, attempt, recoveryStarted⟩ := p
    cases phase with
    | connected session =>
      cases session with
      | panicked reader => rfl
      | _ => cases h
    | sampling | marking | notifying => cases h
    | _ => rfl
  · rw [sender?_of_result h] at hs
    cases hs

/-- A participant whose sender writes has nothing else left. -/
theorem Participant.draining_of_write {bound : Instant} {p : Participant} {s : Sender}
    {write : Write} (hs : p.sender? = some s) (hwrite : s.write? = some write)
    (hsince : s.WritesSince bound) : p.Draining bound := by
  refine ⟨?_, fun s' hs' => ?_⟩
  · by_contra hmay
    rw [sender?_of_mayStart (Bool.of_not_eq_false hmay)] at hs
    cases hs
  · obtain rfl := Option.some.inj (hs.symm.trans hs')
    exact ⟨write, hwrite, hsince write hwrite⟩

/-- Can a task, or the main task, make the step while nothing comes from outside? -/
def RunAct.isWork : RunAct → Bool
  | .elapse _ | .stop | .forward => false
  | .task _ act => act.isInternal
  | _ => true

/-- Does the step wait for the server? -/
def RunAct.isAnswer : RunAct → Bool
  | .task _ act => !act.isInternal
  | _ => false

namespace Run

variable {r r' r₀ : Run} {act : RunAct} {acts : List RunAct} {bound : Instant}

/-- The sessions and the waiter of the main task are alive, and writes began before now. -/
structure Alive (r : Run) : Prop where
  main : ∀ barrier, r.main = .waiting barrier → barrier.isReturned = false
  awake : ∀ task ∈ r.tasks, ∀ session ∈ task.state.session?, session.Awake
  since : ∀ task ∈ r.tasks, ∀ s ∈ task.state.sender?, s.WritesSince r.world.now

theorem awake_invariant : TaskInvariant P config
    (fun _ task => ∀ session ∈ task.state.session?, session.Awake) where
  spawn w participant delay _ session hsession := by cases hsession
  later w w' task hnow hready htask := htask
  step w task act state effects htask hstep := Participant.awake_step htask hstep

theorem since_invariant : TaskInvariant P config
    (fun w task => ∀ s ∈ task.state.sender?, s.WritesSince w.now) where
  spawn w participant delay _ s hs := by cases hs
  later w w' task hnow hready htask s hs write hwrite := (htask s hs write hwrite).trans hnow
  step w task act state effects htask hstep s' hs' := by
    rcases Participant.sender_cases hstep with ⟨s, s'', a, rfl, hs, hsender, hs'', -⟩ |
      ⟨interval, -, -, -, -, -, hs'', -, -⟩ | ⟨s, -, -, hs'', -, -⟩ | ⟨-, hsame, -, -⟩
    · have hs' : s' ∈ state.sender? := hs'
      rw [hs''] at hs'
      obtain rfl := Session.eq_of_alive? hs'
      exact Sender.writesSince_step (htask s hs) hsender
    · have hs' : s' ∈ state.sender? := hs'
      rw [hs''] at hs'
      obtain rfl := Option.some.inj hs'
      exact Sender.writesSince_of_none rfl
    · have hs' : s' ∈ state.sender? := hs'
      rw [hs''] at hs'
      cases hs'
    · have hs' : s' ∈ state.sender? := hs'
      rw [hsame] at hs'
      exact htask s' hs'

theorem Alive.step (hr : r.Alive) (h : r.step P config act = some r') : r'.Alive where
  main barrier hbarrier := by
    rcases (waiting_step h hbarrier).1 with hold | hnew
    · exact hr.main barrier hold
    · exact hnew
  awake := awake_invariant.run_step hr.awake h
  since := since_invariant.run_step hr.since h

theorem alive_spawn (delays : List Duration) (stop : Bool) : (spawn config delays stop).Alive where
  main := (bounded_spawn delays stop).main
  awake task htask session hsession := by
    obtain ⟨-, -, delay, hstate⟩ := exists_of_mem_spawn htask
    rw [hstate] at hsession
    cases hsession
  since task htask s hs := by
    obtain ⟨-, -, delay, hstate⟩ := exists_of_mem_spawn htask
    rw [hstate] at hs
    cases hs

/-- A task that can go on is work for the run. -/
theorem exists_work_of_task {task : Task} (htask : task ∈ r.tasks)
    (h : ∃ act, act.isInternal = true ∧
      ∃ q, task.state.step P task.participant config r.world act = some q) :
    ∃ act, act.isWork = true ∧ ∃ r', r.step P config act = some r' := by
  obtain ⟨a, hinternal, ⟨state, effects⟩, hstep⟩ := h
  obtain ⟨i, hi⟩ := List.mem_iff_getElem?.mp htask
  refine ⟨.task i a, hinternal, ?_⟩
  simp only [step, hi, hstep, Option.map_some]
  exact ⟨_, rfl⟩

/-- **A run that is released has work left**, or its tasks are done but for writes in progress. -/
theorem draining_or_exists_work (P : Platform) (hr : r.Alive)
    (hreleased : Released config r.world) :
    (∀ task ∈ r.tasks, task.state.Draining r.world.now) ∨
      ∃ act, act.isWork = true ∧ ∃ r', r.step P config act = some r' := by
  by_contra! hidle
  obtain ⟨⟨task, htask, hdraining⟩, hidle⟩ := hidle
  -- the task is not done, and its sender does not write
  have hresult : task.state.result? = none := by
    cases hresult : task.state.result? with
    | none => rfl
    | some result => exact absurd (Participant.draining_of_result hresult _) hdraining
  have hwrite : ∀ s ∈ task.state.sender?, ∀ write ∈ s.write?,
      write.since + config.timeouts.write ≤ r.world.now := by
    intro s hs write hwrite
    exact absurd (Participant.draining_of_write hs hwrite (hr.since task htask s hs)) hdraining
  obtain ⟨act, hact, r', hstep⟩ := exists_work_of_task htask
    (Participant.exists_internal_of_released P task.participant hresult (hr.awake task htask)
      hreleased hwrite)
  exact absurd hstep (hidle act hact r')

/-- The main task goes on when all tasks are done. -/
theorem exists_work_of_main (P : Platform) (hr : r.Alive) (hreleased : Released config r.world)
    (hmain : ∀ outcome, r.main ≠ .returned outcome)
    (hdone : ∀ task ∈ r.tasks, ∃ result, task.state.result? = some result) :
    ∃ act, act.isWork = true ∧ ∃ r', r.step P config act = some r' := by
  cases hphase : r.main with
  | waiting barrier =>
    obtain ⟨a, barrier', hstep⟩ :=
      BarrierPhase.exists_step_of_released (hr.main barrier hphase) hreleased
    refine ⟨.barrier a, rfl, ?_⟩
    simp only [step, hphase, hstep, Option.map_some]
    exact ⟨_, rfl⟩
  | timedOut =>
    refine ⟨.missing, rfl, ?_⟩
    simp only [step, hphase]
    exact ⟨_, rfl⟩
  | joining failures joined =>
    by_cases hall : (List.range r.tasks.length).all (· ∈ joined) = true
    · refine ⟨.evaluate, rfl, ?_⟩
      simp only [step, hphase, if_pos hall]
      exact ⟨_, rfl⟩
    · -- some task is still to be joined
      simp only [List.all_eq_true, List.mem_range, decide_eq_true_eq, not_forall] at hall
      obtain ⟨i, hlt, hnot⟩ := hall
      have hget : r.tasks[i]? = some r.tasks[i] := List.getElem?_eq_getElem hlt
      obtain ⟨result, hresult⟩ := hdone r.tasks[i] (List.getElem_mem hlt)
      refine ⟨.join i, rfl, ?_⟩
      simp only [step, hphase, hget, hresult, if_pos hnot]
      exact ⟨_, rfl⟩
  | returned outcome => exact absurd hphase (hmain outcome)

/-- **A run that is released is not held up** but by a write that is not due yet. -/
theorem exists_work (P : Platform) (hr : r.Alive) (hreleased : Released config r.world)
    (hwrite : ∀ task ∈ r.tasks, ∀ s ∈ task.state.sender?, ∀ write ∈ s.write?,
      write.since + config.timeouts.write ≤ r.world.now)
    (hmain : ∀ outcome, r.main ≠ .returned outcome) :
    ∃ act, act.isWork = true ∧ ∃ r', r.step P config act = some r' := by
  by_cases hdone : ∀ task ∈ r.tasks, ∃ result, task.state.result? = some result
  · exact exists_work_of_main P hr hreleased hmain hdone
  · push Not at hdone
    obtain ⟨task, htask, hresult⟩ := hdone
    exact exists_work_of_task htask (Participant.exists_internal_of_released P task.participant
      (Option.eq_none_iff_forall_ne_some.mpr hresult) (hr.awake task htask) hreleased
      (hwrite task htask))

/-- Tasks that drain go on to do so, as long as the server says nothing. -/
theorem draining_step {bound : Instant} (hr : ∀ task ∈ r.tasks, task.state.Draining bound)
    (hact : act.isAnswer = false) (h : r.step P config act = some r') :
    ∀ task ∈ r'.tasks, task.state.Draining bound := by
  rcases step_cases h with ⟨i, a, task, state, effects, rfl, hget, hstep, rfl⟩ | ⟨-, hidle⟩
  · intro other hother
    rcases List.mem_or_eq_of_mem_set hother with hother | rfl
    · exact hr other hother
    · exact (hr task (List.mem_of_getElem? hget)).step (by simpa [RunAct.isAnswer] using hact) hstep
  · rw [hidle.tasks]
    exact hr

end Run

end TakBench
