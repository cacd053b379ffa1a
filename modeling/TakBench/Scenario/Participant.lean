import TakBench.Scenario.Session

/-!
# A participant

`run_participant` dials, marks the participant ready and runs a session, again and again until a
session ends well, the attempts are exhausted, or the run is over. A participant starts after the
delay that the schedule gives it. A new connection is counted at once, and announced when its
samples are recorded, each under the lock of its histogram.

## Main definitions

* `ConnectionSample`: the samples of a new connection
* `Participant`, `Participant.step`
* `Participant.session?`: the session that is alive
* `Participant.Steps`: the steps, each with the phase that it leaves

## Main results

* `Participant.steps_of_step`: a step is one of these
* `Participant.step_cases`: a step is one of the session, or says nothing about events
* `Participant.sender_cases`: what a step does to the sender
-/

namespace TakBench

variable (P : Platform) (participant : ParticipantConfig) (config : AppConfig)

/-- A sample of a new connection. -/
inductive ConnectionSample where
  | handshake (elapsed : Duration)
  | recovery (elapsed : Duration)

/-- Only the handshake of a reconnect is followed by another sample. -/
def ConnectionSample.isLast (attempt : ℕ) : ConnectionSample → Bool
  | .handshake _ => attempt = 0
  | .recovery _ => true

/-- Where a participant stands. -/
inductive ParticipantPhase where
  /-- a task that has not run yet, with its start delay -/
  | spawned (delay : Duration)
  | ramping (endsAt : Instant)
  /-- at the head of the loop -/
  | looping
  | dialing
  /-- waiting for the lock of a histogram -/
  | sampling (sample : ConnectionSample)
  /-- waiting for the lock of the ready set -/
  | marking
  | notifying
  | connected (session : Session)
  /-- after a failure that does not end the participant -/
  | retrying (failure : Failure)
  | backingOff (endsAt : Instant) (failure : Failure)
  | returned (result : Except Failure Unit)
  | panicked

structure Participant where
  phase : ParticipantPhase
  attempt : ℕ
  recoveryStarted : Instant

/-- What a participant sees. -/
inductive ParticipantAct where
  | start
  | delayOver
  | delayCut
  | enterLoop
  | connected (handshakeTime : Duration)
  | connectFailed (error : ConnectError) (source : Failure)
  | dialStopped
  | dialDeadline
  | sampled
  | marked
  | notified
  | session (act : SessionAct)
  | sessionOver
  /-- with the factor that the jitter draws -/
  | retry (factor : ℚ)

namespace Participant

/-- A participant before its task runs. -/
def spawn (delay : Duration) : Participant := ⟨.spawned delay, 0, 0⟩

/-- The participant goes on in another phase. -/
def goto (p : Participant) (phase : ParticipantPhase) : Participant := { p with phase }

/-- `run_participant` up to its loop. -/
def enter (w : World) : Participant :=
  match config.tls.forParticipant participant.id with
  | .error _ => ⟨.returned (.error [.tlsTemplate]), 0, w.now⟩
  | .ok _ => ⟨.looping, 0, w.now⟩

/-- A new connection is counted. -/
def countConnected : List Effect := [.add .connectionSuccesses 1, .add .activeConnections 1]

/-- `record_handshake` and `record_recovery` with the lock of their histogram. -/
def recordSample : ConnectionSample → Effect
  | .handshake elapsed => .record .handshake elapsed
  | .recovery elapsed => .record .recovery elapsed

/-- What is recorded with the last sample of a new connection. -/
def recordConnected (sample : ConnectionSample) : List Effect :=
  [recordSample sample, .emit (.participantConnected participant.id),
    .emit (.participantReady participant.id)]

/-- What is recorded for a failed dial. -/
def recordConnectFailed (error : ConnectError) : List Effect :=
  .add .connectionFailures 1 :: (if error.isTls then [.add .tlsFailures 1] else []) ++
    if config.reconnect.enabled then [.add .reconnectFailures 1] else []

/-- What is recorded for the end of a session. -/
def recordSessionOver (w : World) (p : Participant) (result : Except Failure Unit) :
    List Effect :=
  [.sub .activeConnections 1, .emit (.participantDisconnected participant.id
    (disconnectReason result w.stop (config.run.duration ≤ w.now)))] ++
  match result with
  | .ok () => []
  | .error failure =>
    .add .connectionFailures 1 ::
      (if config.tls.enabled && isTlsFailure failure then [.add .tlsFailures 1] else []) ++
      if 0 < p.attempt then [.add .reconnectFailures 1] else []

/-- The decision after a session. -/
def afterSession (w : World) : Except Failure Unit → ParticipantPhase
  | .ok () => .returned (.ok ())
  | .error failure =>
    if !config.reconnect.enabled || decide (config.run.duration ≤ w.now) then
      .returned (.error failure)
    else .retrying failure

/-- The end of a backoff that is cut short. -/
def cutBackoff (w : World) (failure : Failure) : ParticipantPhase :=
  .returned (if w.stop then .ok () else .error failure)

/-- The backoff before an attempt. -/
def backOff (w : World) (attempt : ℕ) (failure : Failure) (factor : ℚ) : ParticipantPhase :=
  match reconnectDelay config attempt factor with
  | none => .panicked
  | some delay =>
    match enterDelay w config.run.duration delay with
    | none => cutBackoff w failure
    | some endsAt => .backingOff endsAt failure

/-- The decision to dial again. -/
def retry (w : World) (p : Participant) (failure : Failure) (factor : ℚ) : Participant :=
  if config.reconnect.maxAttempts.toNat ≤ p.attempt then
    p.goto (.returned (.error [.runtime .reconnectExhausted]))
  else
    { p with
      attempt := p.attempt + 1
      phase := backOff config w (p.attempt + 1) failure factor }

/-- Is the factor in the range of the jitter? -/
def isJitter (factor : ℚ) : Bool :=
  let jitter : ℚ := (min config.reconnect.jitterPercent 100 : ℕ) / 100
  1 - jitter ≤ factor && factor ≤ 1 + jitter

/-- A step of a participant. -/
def step (w : World) (p : Participant) : ParticipantAct → Option (Participant × List Effect)
  | .start =>
    match p.phase with
    | .spawned delay =>
      match enterDelay w config.run.duration delay with
      | none => some (p.goto (.returned (.ok ())), [])
      | some endsAt => some (p.goto (.ramping endsAt), [])
    | _ => none
  | .delayOver =>
    match p.phase with
    | .ramping endsAt => if endsAt ≤ w.now then some (enter participant config w, []) else none
    | .backingOff endsAt _ => if endsAt ≤ w.now then some (p.goto .looping, []) else none
    | _ => none
  | .delayCut =>
    if w.stop || decide (config.run.duration ≤ w.now) then
      match p.phase with
      | .ramping _ => some (p.goto (.returned (.ok ())), [])
      | .backingOff _ failure => some (p.goto (cutBackoff w failure), [])
      | _ => none
    else none
  | .enterLoop =>
    match p.phase with
    | .looping =>
      if w.stop || decide (config.run.duration ≤ w.now) then
        some (p.goto (.returned (.ok ())), [])
      else some (p.goto .dialing, [.add .connectionAttempts 1])
    | _ => none
  | .connected handshakeTime =>
    match p.phase with
    -- counted before `record_handshake` waits for its lock
    | .dialing => some (p.goto (.sampling (.handshake handshakeTime)), countConnected)
    | _ => none
  | .connectFailed error source =>
    match p.phase with
    | .dialing =>
      if config.reconnect.enabled then
        some (p.goto (.retrying (.connect error :: source)), recordConnectFailed config error)
      else
        some (p.goto (.returned (.error (.connect error :: source))),
          recordConnectFailed config error)
    | _ => none
  | .dialStopped =>
    match p.phase with
    | .dialing => if w.stop then some (p.goto (.returned (.ok ())), []) else none
    | _ => none
  | .dialDeadline =>
    match p.phase with
    | .dialing =>
      if config.run.duration ≤ w.now then some (p.goto (.returned (.ok ())), []) else none
    | _ => none
  | .sampled =>
    match p.phase with
    | .sampling sample =>
      if sample.isLast p.attempt then
        -- `mark_ready` takes the lock only for a required participant
        if participant.id ∈ config.synchronization.waitForReady then
          some (p.goto .marking, recordConnected participant sample)
        else
          some (p.goto (.connected (Session.start participant config w)),
            recordConnected participant sample)
      else
        -- the elapsed time is taken before `record_recovery` waits for its lock
        some (p.goto (.sampling (.recovery (w.now - p.recoveryStarted))),
          [recordSample sample, .add .reconnects 1])
    | _ => none
  | .marked =>
    match p.phase with
    | .marking => some (p.goto .notifying, [.markReady participant.id])
    | _ => none
  | .notified =>
    match p.phase with
    | .notifying =>
      some (p.goto (.connected (Session.start participant config w)), [.notifyWaiters])
    | _ => none
  | .session act =>
    match p.phase with
    | .connected session =>
      (session.step P participant config w act).map fun (session, effects) =>
        (p.goto (.connected session), effects)
    | _ => none
  | .sessionOver =>
    match p.phase with
    | .connected (.returned result) =>
      some (p.goto (afterSession config w result),
        recordSessionOver participant config w p result)
    | _ => none
  | .retry factor =>
    match p.phase with
    | .retrying failure =>
      if isJitter config factor then some (p.retry config w failure factor, []) else none
    | _ => none

/-- The session that is alive. -/
def session? (p : Participant) : Option Session :=
  match p.phase with
  | .connected session => some session
  | _ => none

/-- The sender that is alive. -/
def sender? (p : Participant) : Option Sender := p.session?.bind Session.sender?

/-- May a sender still start on the connection? -/
def mayStart (p : Participant) : Bool :=
  match p.phase with
  | .sampling _ | .marking | .notifying => true
  | .connected session => session.mayStart
  | _ => false

/-- Is a connection of the participant open, or being opened? -/
def isConnected (p : Participant) : Bool :=
  match p.phase with
  | .dialing | .sampling _ | .marking | .notifying | .connected _ => true
  | _ => false

/-- The result of the participant's task, if it is done; `none` in it is a panic. -/
def result? (p : Participant) : Option (Option (Except Failure Unit)) :=
  match p.phase with
  | .returned result => some (some result)
  | .panicked | .connected (.panicked _) => some none
  | _ => none

variable {P participant config} {w : World} {p p' : Participant} {act : ParticipantAct}
  {out : List Effect}

/-- A participant as a component of a run. -/
def component (P : Platform) (participant : ParticipantConfig) (config : AppConfig) :
    Component World Participant ParticipantAct Effect where
  step := step P participant config

/-! ## What the steps do -/

theorem recordConnected_ofConnection (sample : ConnectionSample) :
    ∀ e ∈ recordConnected participant sample, e.OfConnection := by
  cases sample <;> simp [recordConnected, recordSample, Effect.OfConnection]

theorem recordConnectFailed_ofConnection (error : ConnectError) :
    ∀ e ∈ recordConnectFailed config error, e.OfConnection := by
  rw [recordConnectFailed]
  split <;> split <;> simp [Effect.OfConnection]

theorem recordSessionOver_ofConnection (result : Except Failure Unit) :
    ∀ e ∈ recordSessionOver participant config w p result, e.OfConnection := by
  cases result with
  | ok _ => simp [recordSessionOver, Effect.OfConnection]
  | error failure =>
    simp only [recordSessionOver]
    split <;> split <;> simp [Effect.OfConnection]

/-- The steps of a participant, in the order of `step`. -/
inductive Steps (P : Platform) (participant : ParticipantConfig) (config : AppConfig) (w : World)
    (p : Participant) : ParticipantAct → Participant → List Effect → Prop where
  /-- the start delay does not end before the run -/
  | startOver (delay : Duration) (hphase : p.phase = .spawned delay)
      (hover : enterDelay w config.run.duration delay = none) :
      Steps P participant config w p .start (p.goto (.returned (.ok ()))) []
  | ramp (delay : Duration) (endsAt : Instant) (hphase : p.phase = .spawned delay)
      (hdelay : enterDelay w config.run.duration delay = some endsAt) :
      Steps P participant config w p .start (p.goto (.ramping endsAt)) []
  | enter (endsAt : Instant) (hphase : p.phase = .ramping endsAt) (hdue : endsAt ≤ w.now) :
      Steps P participant config w p .delayOver (enter participant config w) []
  | redial (endsAt : Instant) (failure : Failure) (hphase : p.phase = .backingOff endsAt failure)
      (hdue : endsAt ≤ w.now) :
      Steps P participant config w p .delayOver (p.goto .looping) []
  | rampCut (endsAt : Instant) (hphase : p.phase = .ramping endsAt)
      (hover : w.stop = true ∨ config.run.duration ≤ w.now) :
      Steps P participant config w p .delayCut (p.goto (.returned (.ok ()))) []
  | backoffCut (endsAt : Instant) (failure : Failure)
      (hphase : p.phase = .backingOff endsAt failure)
      (hover : w.stop = true ∨ config.run.duration ≤ w.now) :
      Steps P participant config w p .delayCut (p.goto (cutBackoff w failure)) []
  | leave (hphase : p.phase = .looping)
      (hover : w.stop = true ∨ config.run.duration ≤ w.now) :
      Steps P participant config w p .enterLoop (p.goto (.returned (.ok ()))) []
  | dial (hphase : p.phase = .looping) (hstop : w.stop = false)
      (hnow : w.now < config.run.duration) :
      Steps P participant config w p .enterLoop (p.goto .dialing) [.add .connectionAttempts 1]
  | connect (handshakeTime : Duration) (hphase : p.phase = .dialing) :
      Steps P participant config w p (.connected handshakeTime)
        (p.goto (.sampling (.handshake handshakeTime))) countConnected
  | connectRetried (error : ConnectError) (source : Failure) (hphase : p.phase = .dialing)
      (henabled : config.reconnect.enabled = true) :
      Steps P participant config w p (.connectFailed error source)
        (p.goto (.retrying (.connect error :: source))) (recordConnectFailed config error)
  | connectFails (error : ConnectError) (source : Failure) (hphase : p.phase = .dialing)
      (hdisabled : config.reconnect.enabled ≠ true) :
      Steps P participant config w p (.connectFailed error source)
        (p.goto (.returned (.error (.connect error :: source)))) (recordConnectFailed config error)
  | dialStopped (hphase : p.phase = .dialing) (hstop : w.stop = true) :
      Steps P participant config w p .dialStopped (p.goto (.returned (.ok ()))) []
  | dialDeadline (hphase : p.phase = .dialing) (hdeadline : config.run.duration ≤ w.now) :
      Steps P participant config w p .dialDeadline (p.goto (.returned (.ok ()))) []
  /-- a reconnect has another sample -/
  | reconnect (elapsed : Duration) (hphase : p.phase = .sampling (.handshake elapsed))
      (hattempt : 0 < p.attempt) :
      Steps P participant config w p .sampled
        (p.goto (.sampling (.recovery (w.now - p.recoveryStarted))))
        [.record .handshake elapsed, .add .reconnects 1]
  /-- `mark_ready` takes the lock -/
  | openRequired (sample : ConnectionSample) (hphase : p.phase = .sampling sample)
      (hlast : sample.isLast p.attempt = true)
      (hrequired : participant.id ∈ config.synchronization.waitForReady) :
      Steps P participant config w p .sampled (p.goto .marking)
        (recordConnected participant sample)
  | openSession (sample : ConnectionSample) (hphase : p.phase = .sampling sample)
      (hlast : sample.isLast p.attempt = true)
      (hrequired : participant.id ∉ config.synchronization.waitForReady) :
      Steps P participant config w p .sampled
        (p.goto (.connected (Session.start participant config w)))
        (recordConnected participant sample)
  | marked (hphase : p.phase = .marking) :
      Steps P participant config w p .marked (p.goto .notifying) [.markReady participant.id]
  | notified (hphase : p.phase = .notifying) :
      Steps P participant config w p .notified
        (p.goto (.connected (Session.start participant config w))) [.notifyWaiters]
  | session (session session' : Session) (a : SessionAct) (out : List Effect)
      (hphase : p.phase = .connected session)
      (hsession : session.step P participant config w a = some (session', out)) :
      Steps P participant config w p (.session a) (p.goto (.connected session')) out
  | sessionOver (result : Except Failure Unit) (hphase : p.phase = .connected (.returned result)) :
      Steps P participant config w p .sessionOver (p.goto (afterSession config w result))
        (recordSessionOver participant config w p result)
  | retry (factor : ℚ) (failure : Failure) (hphase : p.phase = .retrying failure)
      (hjitter : isJitter config factor = true) :
      Steps P participant config w p (.retry factor) (p.retry config w failure factor) []

/-- **Each step leaves a phase of its own.** -/
theorem steps_of_step (h : p.step P participant config w act = some (p', out)) :
    Steps P participant config w p act p' out := by
  cases act with
  | start =>
    simp only [step] at h
    split at h
    · next delay hphase =>
      split at h
      · next hover =>
        obtain ⟨rfl, rfl⟩ := Prod.mk.inj (Option.some.inj h)
        exact .startOver delay hphase hover
      · next endsAt hdelay =>
        obtain ⟨rfl, rfl⟩ := Prod.mk.inj (Option.some.inj h)
        exact .ramp delay endsAt hphase hdelay
    · cases h
  | delayOver =>
    simp only [step] at h
    split at h
    · next endsAt hphase =>
      simp only [Option.ite_none_right_eq_some, Option.some.injEq, Prod.mk.injEq] at h
      obtain ⟨hdue, rfl, rfl⟩ := h
      exact .enter endsAt hphase hdue
    · next endsAt failure hphase =>
      simp only [Option.ite_none_right_eq_some, Option.some.injEq, Prod.mk.injEq] at h
      obtain ⟨hdue, rfl, rfl⟩ := h
      exact .redial endsAt failure hphase hdue
    · cases h
  -- a delay is cut short by the stop signal or the deadline, in either phase
  | delayCut =>
    simp only [step, Option.ite_none_right_eq_some, Bool.or_eq_true, decide_eq_true_eq] at h
    obtain ⟨hover, h⟩ := h
    split at h
    · next endsAt hphase =>
      obtain ⟨rfl, rfl⟩ := Prod.mk.inj (Option.some.inj h)
      exact .rampCut endsAt hphase hover
    · next endsAt failure hphase =>
      obtain ⟨rfl, rfl⟩ := Prod.mk.inj (Option.some.inj h)
      exact .backoffCut endsAt failure hphase hover
    · cases h
  | enterLoop =>
    simp only [step] at h
    split at h
    · next hphase =>
      split at h
      · next hover =>
        obtain ⟨rfl, rfl⟩ := Prod.mk.inj (Option.some.inj h)
        rw [Bool.or_eq_true, decide_eq_true_eq] at hover
        exact .leave hphase hover
      · next hover =>
        obtain ⟨rfl, rfl⟩ := Prod.mk.inj (Option.some.inj h)
        rw [Bool.or_eq_true, decide_eq_true_eq, not_or, Bool.not_eq_true, Nat.not_le] at hover
        exact .dial hphase hover.1 hover.2
    · cases h
  | connected handshakeTime =>
    simp only [step] at h
    split at h
    · next hphase =>
      obtain ⟨rfl, rfl⟩ := Prod.mk.inj (Option.some.inj h)
      exact .connect handshakeTime hphase
    · cases h
  | connectFailed error source =>
    simp only [step] at h
    split at h
    · next hphase =>
      split at h
      · next henabled =>
        obtain ⟨rfl, rfl⟩ := Prod.mk.inj (Option.some.inj h)
        exact .connectRetried error source hphase henabled
      · next hdisabled =>
        obtain ⟨rfl, rfl⟩ := Prod.mk.inj (Option.some.inj h)
        exact .connectFails error source hphase hdisabled
    · cases h
  | dialStopped =>
    simp only [step] at h
    split at h
    · next hphase =>
      simp only [Option.ite_none_right_eq_some, Option.some.injEq, Prod.mk.injEq] at h
      obtain ⟨hstop, rfl, rfl⟩ := h
      exact .dialStopped hphase hstop
    · cases h
  | dialDeadline =>
    simp only [step] at h
    split at h
    · next hphase =>
      simp only [Option.ite_none_right_eq_some, Option.some.injEq, Prod.mk.injEq] at h
      obtain ⟨hdeadline, rfl, rfl⟩ := h
      exact .dialDeadline hphase hdeadline
    · cases h
  | sampled =>
    simp only [step] at h
    split at h
    · next sample hphase =>
      split at h
      · next hlast =>
        split at h
        · next hrequired =>
          obtain ⟨rfl, rfl⟩ := Prod.mk.inj (Option.some.inj h)
          exact .openRequired sample hphase hlast hrequired
        · next hrequired =>
          obtain ⟨rfl, rfl⟩ := Prod.mk.inj (Option.some.inj h)
          exact .openSession sample hphase hlast hrequired
      · next hlast =>
        obtain ⟨rfl, rfl⟩ := Prod.mk.inj (Option.some.inj h)
        cases sample with
        | handshake elapsed =>
          exact .reconnect elapsed hphase (Nat.pos_of_ne_zero fun hzero => hlast (by simp [hzero,
            ConnectionSample.isLast]))
        | recovery elapsed => exact absurd rfl hlast
    · cases h
  | marked =>
    simp only [step] at h
    split at h
    · next hphase =>
      obtain ⟨rfl, rfl⟩ := Prod.mk.inj (Option.some.inj h)
      exact .marked hphase
    · cases h
  | notified =>
    simp only [step] at h
    split at h
    · next hphase =>
      obtain ⟨rfl, rfl⟩ := Prod.mk.inj (Option.some.inj h)
      exact .notified hphase
    · cases h
  | session a =>
    simp only [step] at h
    split at h
    · next session hphase =>
      obtain ⟨⟨session', effects⟩, hsession, hq⟩ := Option.map_eq_some_iff.mp h
      obtain ⟨rfl, rfl⟩ := Prod.mk.inj hq
      exact .session session session' a effects hphase hsession
    · cases h
  | sessionOver =>
    simp only [step] at h
    split at h
    · next result hphase =>
      obtain ⟨rfl, rfl⟩ := Prod.mk.inj (Option.some.inj h)
      exact .sessionOver result hphase
    · cases h
  | retry factor =>
    simp only [step] at h
    split at h
    · next failure hphase =>
      simp only [Option.ite_none_right_eq_some, Option.some.injEq, Prod.mk.injEq] at h
      obtain ⟨hjitter, rfl, rfl⟩ := h
      exact .retry factor failure hphase hjitter
    · cases h

/-- The sample of a new connection can be recorded. -/
theorem exists_sampled (P : Platform) (participant : ParticipantConfig) (config : AppConfig)
    (w : World) {sample : ConnectionSample} (hphase : p.phase = .sampling sample) :
    ∃ q, p.step P participant config w .sampled = some q := by
  simp only [step, hphase]
  split
  · split <;> exact ⟨_, rfl⟩
  · exact ⟨_, rfl⟩

/-- A participant that has returned or panicked makes no step. -/
theorem step_eq_none (hdone : (∃ result, p.phase = .returned result) ∨ p.phase = .panicked) :
    p.step P participant config w act = none := by
  rw [Option.eq_none_iff_forall_ne_some]
  rintro ⟨p', out⟩ h
  rcases hdone with ⟨result, hdone⟩ | hdone
  · cases steps_of_step h <;> simp_all only [reduceCtorEq]
  · cases steps_of_step h <;> simp_all only [reduceCtorEq]

/-- A step of the session that is alive. -/
def SessionSteps (P : Platform) (participant : ParticipantConfig) (config : AppConfig) (w : World)
    (p : Participant) (act : ParticipantAct) (p' : Participant) (out : List Effect) : Prop :=
  ∃ session a session', p.phase = .connected session ∧ act = .session a ∧
    session.step P participant config w a = some (session', out) ∧
    p' = p.goto (.connected session')

theorem sender?_start : (p.goto (.connected (Session.start participant config w))).sender? = none :=
  Session.start_sender?

/-- Is the participant between two connections? -/
def isBetween (p : Participant) : Bool :=
  match p.phase with
  | .looping | .backingOff _ _ | .retrying _ | .returned _ | .panicked => true
  | _ => false

theorem isBetween_enter : (enter participant config w).isBetween = true := by
  rw [enter]
  split <;> rfl

theorem isBetween_afterSession (result : Except Failure Unit) :
    (p.goto (afterSession config w result)).isBetween = true := by
  cases result with
  | ok _ => rfl
  | error failure =>
    rw [afterSession]
    split <;> rfl

theorem isBetween_retry (failure : Failure) (factor : ℚ) :
    (p.retry config w failure factor).isBetween = true := by
  rw [retry]
  split
  · rfl
  · rw [backOff]
    split
    · rfl
    · split <;> rfl

theorem session?_of_isBetween (h : p.isBetween = true) : p.session? = none := by
  obtain ⟨phase, attempt, recoveryStarted⟩ := p
  cases phase with
  | connected session => cases h
  | _ => rfl

theorem mayStart_of_isBetween (h : p.isBetween = true) : p.mayStart = false := by
  obtain ⟨phase, attempt, recoveryStarted⟩ := p
  cases phase with
  | sampling _ | marking | notifying | connected session => cases h
  | _ => rfl

/-- No sender is alive without a session. -/
theorem sender?_of_session? (h : p.session? = none) : p.sender? = none := by
  rw [sender?, h, Option.bind_none]

theorem sender?_of_isBetween (h : p.isBetween = true) : p.sender? = none :=
  sender?_of_session? (session?_of_isBetween h)

/-- **A step of a participant** is one of its session, or says nothing about events while no
sender is alive. -/
theorem step_cases (h : p.step P participant config w act = some (p', out)) :
    SessionSteps P participant config w p act p' out ∨
    ((∀ a, act ≠ .session a) ∧ p.sender? = none ∧ p'.sender? = none ∧
      (p'.mayStart = true → p.mayStart = true ∨ ∃ handshakeTime, act = .connected handshakeTime) ∧
      ∀ e ∈ out, e.OfConnection) := by
  have hnone : (∀ session, p.phase ≠ .connected session) → p.sender? = none := by
    intro hphase
    obtain ⟨phase, attempt, recoveryStarted⟩ := p
    cases phase with
    | connected session => exact absurd rfl (hphase session)
    | _ => rfl
  cases steps_of_step h with
  | session session session' a out hphase hsession =>
    exact .inl ⟨session, a, session', hphase, rfl, hsession, rfl⟩
  | connect handshakeTime hphase =>
    exact .inr ⟨by simp, hnone (by simp [hphase]), rfl, fun _ => .inr ⟨handshakeTime, rfl⟩, by
      simp [countConnected, Effect.OfConnection]⟩
  | reconnect elapsed hphase =>
    refine .inr ⟨by simp, hnone (by simp [hphase]), rfl, fun _ => .inl ?_, by
      simp [Effect.OfConnection]⟩
    rw [mayStart, hphase]
  | openRequired sample hphase =>
    refine .inr ⟨by simp, hnone (by simp [hphase]), rfl, fun _ => .inl ?_,
      recordConnected_ofConnection sample⟩
    rw [mayStart, hphase]
  | openSession sample hphase =>
    refine .inr ⟨by simp, hnone (by simp [hphase]), sender?_start, fun _ => .inl ?_,
      recordConnected_ofConnection sample⟩
    rw [mayStart, hphase]
  | marked hphase =>
    refine .inr ⟨by simp, hnone (by simp [hphase]), rfl, fun _ => .inl ?_, by
      simp [Effect.OfConnection]⟩
    rw [mayStart, hphase]
  | notified hphase =>
    refine .inr ⟨by simp, hnone (by simp [hphase]), sender?_start, fun _ => .inl ?_, by
      simp [Effect.OfConnection]⟩
    rw [mayStart, hphase]
  | sessionOver result hphase =>
    -- the session has returned, with its sender
    have hbetween : (p.goto (afterSession config w result)).isBetween = true :=
      isBetween_afterSession result
    refine .inr ⟨by simp, ?_, sender?_of_isBetween hbetween, fun hmay => ?_,
      recordSessionOver_ofConnection result⟩
    · rw [sender?, session?, hphase]
      rfl
    · rw [mayStart_of_isBetween hbetween] at hmay
      cases hmay
  | enter endsAt hphase =>
    refine .inr ⟨by simp, hnone (by simp [hphase]), sender?_of_isBetween isBetween_enter,
      fun hmay => ?_, by simp⟩
    rw [mayStart_of_isBetween isBetween_enter] at hmay
    cases hmay
  | retry factor failure hphase =>
    refine .inr ⟨by simp, hnone (by simp [hphase]),
      sender?_of_isBetween (isBetween_retry failure factor), fun hmay => ?_, by simp⟩
    rw [mayStart_of_isBetween (isBetween_retry failure factor)] at hmay
    cases hmay
  | connectRetried error source hphase =>
    exact .inr ⟨by simp, hnone (by simp [hphase]), rfl, fun hmay => (by cases hmay),
      recordConnectFailed_ofConnection error⟩
  | connectFails error source hphase =>
    exact .inr ⟨by simp, hnone (by simp [hphase]), rfl, fun hmay => (by cases hmay),
      recordConnectFailed_ofConnection error⟩
  | dial hphase =>
    exact .inr ⟨by simp, hnone (by simp [hphase]), rfl, fun hmay => (by cases hmay), by
      simp [Effect.OfConnection]⟩
  -- the steps that record nothing, to a phase without a connection
  | startOver _ hphase | ramp _ _ hphase | redial _ _ hphase | rampCut _ hphase
  | backoffCut _ _ hphase | leave hphase | dialStopped hphase | dialDeadline hphase =>
    exact .inr ⟨by simp, hnone (by simp [hphase]), rfl, fun hmay => (by cases hmay), by simp⟩

/-! ## The end of a participant -/

theorem sender?_of_result {result : Option (Except Failure Unit)} (h : p.result? = some result) :
    p.sender? = none := by
  obtain ⟨phase, attempt, recoveryStarted⟩ := p
  cases phase with
  | connected session =>
    cases session with
    | panicked reader => rfl
    | _ => cases h
  | _ => rfl

/-- A task that is done stays done; only the reader of a panicked session still runs. -/
theorem result?_step {result : Option (Except Failure Unit)} (hresult : p.result? = some result)
    (h : p.step P participant config w act = some (p', out)) : p'.result? = some result := by
  obtain ⟨phase, attempt, recoveryStarted⟩ := p
  cases phase with
  | returned outcome => cases (step_eq_none (.inl ⟨outcome, rfl⟩)).symm.trans h
  | panicked => cases (step_eq_none (.inr rfl)).symm.trans h
  | connected session =>
    cases session with
    | panicked reader =>
      cases act with
      | session a =>
        obtain ⟨⟨session', effects⟩, hsession, hp⟩ := Option.map_eq_some_iff.mp h
        obtain ⟨rfl, rfl⟩ := Prod.mk.inj hp
        cases Session.steps_of_step hsession with
        | reader => exact hresult
      | _ => simp [step] at h
    | _ => cases hresult
  | _ => cases hresult

/-! ## The sender of a participant -/

/-- The sender of a participant in a step. -/
inductive SenderCases (P : Platform) (participant : ParticipantConfig) (config : AppConfig)
    (w : World) (p : Participant) (act : ParticipantAct) (p' : Participant)
    (out : List Effect) : Prop where
  | steps (s s' : Sender) (a : SenderAct) (hact : act = .session (.sender a))
      (hs : p.sender? = some s) (hstep : s.step P participant config w a = some (s', out))
      (hs' : p'.sender? = Session.alive? s') (hmay : p'.mayStart = false)
  | starts (interval : Duration) (hpassive : ∃ a, act = .session (.barrier a))
      (hs : p.mayStart = true) (hready : isReady config w.ready = true)
      (hinterval : emissionInterval config = some interval) (hpos : 0 < interval)
      (hs' : p'.sender? = some (Sender.new w.now interval)) (hmay : p'.mayStart = false)
      (hout : out = [])
  | dropped (s : Sender) (hact : act = .session .readerDone) (hs : p.sender? = some s)
      (hs' : p'.sender? = none) (hmay : p'.mayStart = false) (hout : out = [])
  | quiet (hpassive : ∀ a, act = .session a → a.isPassive = true)
      (hs' : p'.sender? = p.sender?)
      (hmay : p'.mayStart = true →
        p.mayStart = true ∨ ∃ handshakeTime, act = .connected handshakeTime)
      (hout : ∀ e ∈ out, e.Quiet)

theorem sender?_of_mayStart (h : p.mayStart = true) : p.sender? = none := by
  obtain ⟨phase, attempt, recoveryStarted⟩ := p
  cases phase with
  | connected session => exact Session.sender?_of_mayStart h
  | _ => rfl

/-- **What a step of a participant does to its sender.** -/
theorem sender_cases (h : p.step P participant config w act = some (p', out)) :
    SenderCases P participant config w p act p' out := by
  rcases step_cases h with ⟨session, a, session', hphase, rfl, hsession, rfl⟩ |
    ⟨hact, hnone, hnone', hmay, hconnection⟩
  · have hsender : p.sender? = session.sender? := by
      simp only [sender?, session?, hphase, Option.bind_some]
    have hmayStart : p.mayStart = session.mayStart := by
      simp only [mayStart, hphase]
    have hsender' : (p.goto (.connected session')).sender? = session'.sender? := rfl
    -- the sender steps, starts, is dropped, or is left alone
    rcases Session.step_cases hsession with ⟨s, reader, a', s', rfl, rfl, hstep, rfl⟩ |
      ⟨⟨hmay, hready, interval, reader, hinterval, hpos, rfl⟩, ⟨a', rfl⟩, rfl⟩ |
      ⟨⟨s, reader, result, rfl, rfl, -, rfl⟩, rfl⟩ | ⟨hpassive, hsame, hmay, hquiet⟩
    · exact .steps s s' a' rfl hsender hstep (Session.afterSender_sender? _ _)
        (Session.afterSender_mayStart _ _)
    · exact .starts interval ⟨a', rfl⟩ (hmayStart.trans hmay) hready hinterval hpos rfl rfl rfl
    · exact .dropped s rfl hsender rfl rfl rfl
    · refine .quiet ?_ (hsender'.trans (hsame.trans hsender.symm)) ?_ hquiet
      · rintro a' ⟨⟩
        exact hpassive
      · exact fun h => .inl (hmayStart.trans (hmay h))
  · exact .quiet (fun a ha => absurd ha (hact a)) (hnone'.trans hnone.symm) hmay
      fun e he => (hconnection e he).quiet

end Participant

end TakBench
