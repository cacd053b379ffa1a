import TakBench.Library.Machine
import TakBench.Protocol.Reference
import TakBench.Scenario.Connection

/-!
# The dials of a participant

A participant dials again and again, and each dial fails, or succeeds and has a session that may
end in an error. A `Dialer` is a participant with the dials that it has made: how each of them has
gone, and what was done from its start up to the next one. An outage starts with the first failure
after a connection, or with the first failed dial, and lasts until a dial succeeds.

## Main definitions

* `Dial`, `Dialer`: a dial, and a participant with its dials
* `Dialer.machine`: a participant with a clock
* `Dialer.Goes`: what a step of the participant means for its dials
* `Dial.Classified`: what a dial adds to the counters of reconnects

## Main results

* `Dialer.goes_of_step`: a step dials, ends a dial or a session, or says nothing about reconnects
* `Dialer.reconnects_classified`: what each dial of a run adds to the counters of reconnects
-/

namespace TakBench

/-- How a dial has gone. It has succeeded when its handshake is recorded. -/
inductive DialResult where
  | pending
  | failed (time : Instant)
  /-- a reconnect that waits to record its recovery -/
  | recovering (time : Instant)
  | connected (time : Instant)
  /-- the session has ended in an error -/
  | broken (connected time : Instant)
  deriving DecidableEq

structure Dial where
  /-- the number of dials before it -/
  number : ℕ
  /-- when the outage began that the dial is to end -/
  outage : Option Instant
  result : DialResult
  /-- what was done from the start of the dial up to the next one -/
  effects : List Effect

namespace Dial

/-- When the outage began that a dial has left. -/
def outageAfter (d : Dial) : Option Instant :=
  match d.result with
  | .failed time => some (d.outage.getD time)
  | .broken _ time => some time
  | .pending | .recovering _ | .connected _ => none

/-- The dial after a step of the participant. -/
def resultAfter (d : Dial) (p : Participant) (now : Instant) : ParticipantAct → DialResult
  | .connectFailed _ _ => .failed now
  | .sampled =>
    match d.result, p.phase with
    | .pending, .sampling (.handshake _) =>
      if 0 < p.attempt then .recovering now else .connected now
    | .recovering time, .sampling (.recovery _) => .connected time
    | result, _ => result
  | .sessionOver =>
    match d.result, p.phase with
    | .connected time, .connected (.returned (.error _)) => .broken time now
    | result, _ => result
  | _ => d.result

end Dial

/-- Has the participant dialed, without a result so far? -/
def Participant.isDialing (p : Participant) : Bool :=
  match p.phase with
  | .dialing => true
  | _ => false

/-- A participant with its clock and its dials, the last one first. -/
structure Dialer where
  participant : Participant
  now : Instant
  /-- when the participant entered its loop -/
  started : Instant
  dials : List Dial
  log : List Effect

/-- What happens to a dialer. -/
inductive DialerAct where
  | elapse (duration : Duration)
  | act (w : World) (act : ParticipantAct)

namespace Dialer

def spawn (delay : Duration) : Dialer := ⟨.spawn delay, 0, 0, [], []⟩

/-- The dials after a step of the participant to `p`. -/
def dialsAfter (t : Dialer) (p : Participant) (out : List Effect) (act : ParticipantAct) :
    List Dial :=
  if p.isDialing then
    ⟨t.dials.length, t.dials.head?.bind Dial.outageAfter, .pending, out⟩ :: t.dials
  else
    match t.dials with
    | [] => []
    | d :: earlier =>
      { d with
        result := d.resultAfter t.participant t.now act
        effects := d.effects ++ out } :: earlier

/-- The start after a step of the participant. -/
def startedAfter (t : Dialer) : ParticipantAct → Instant
  | .delayOver =>
    match t.participant.phase with
    | .ramping _ => t.now
    | _ => t.started
  | _ => t.started

variable (P : Platform) (participant : ParticipantConfig) (config : AppConfig)

/-- A participant and its clock, in any worlds. -/
def machine : Machine Dialer DialerAct where
  step t
    | .elapse duration => some { t with now := t.now + duration }
    | .act w act =>
      (t.participant.step P participant config { w with now := t.now } act).map fun (p, out) =>
        { t with
          participant := p
          started := t.startedAfter act
          dials := t.dialsAfter p out act
          log := t.log ++ out }

end Dialer

/-! ## What a step means for the dials -/

/-- Nothing is said about reconnects. -/
def Effect.IsSilent : Effect → Prop
  | .add counter _ => counter ≠ .reconnects ∧ counter ≠ .reconnectFailures
  | .record histogram _ => histogram ≠ .recovery
  | _ => True

theorem Counter.isSilent_of_isEvent {counter : Counter} (h : counter.isEvent = true) :
    counter ≠ .reconnects ∧ counter ≠ .reconnectFailures :=
  ⟨fun heq => by simp [heq, isEvent] at h, fun heq => by simp [heq, isEvent] at h⟩

theorem Effect.Sends.isSilent {e : Effect} (h : e.Sends) : e.IsSilent := by
  cases e with
  | add counter n => exact Counter.isSilent_of_isEvent h
  | record histogram elapsed => exact h.elim
  | _ => trivial

section Silent

variable {P : Platform} {participant : ParticipantConfig} {config : AppConfig} {w : World}
  {out : List Effect}

theorem Sender.step_silent {s s' : Sender} {act : SenderAct}
    (h : s.step P participant config w act = some (s', out)) : ∀ e ∈ out, e.IsSilent := by
  rcases step_cases h with ⟨utc, id, -, -, effects, rfl, hkeeps⟩ | ⟨-, hidles⟩
  · intro e he
    rcases List.mem_cons.mp he with rfl | he
    · trivial
    · exact (hkeeps.sends e he).isSilent
  · exact fun e he => (hidles.2.2.2.2 e he).isSilent

theorem Reader.step_silent {reader reader' : Reader} {act : ReaderAct}
    (h : reader.step P participant config w act = some (reader', out)) :
    ∀ e ∈ out, e.IsSilent := by
  rcases step_effects h with ⟨id, -, -, rfl⟩ | rfl | rfl | rfl
  · rw [record]
    split
    · simp [Effect.IsSilent]
    · split <;> simp [Effect.IsSilent]
  · simp
  · simp [Effect.IsSilent]
  · simp [Effect.IsSilent]

/-- A session says nothing about reconnects. -/
theorem Session.step_silent {session session' : Session} {act : SessionAct}
    (h : session.step P participant config w act = some (session', out)) :
    ∀ e ∈ out, e.IsSilent := by
  rcases step_effects h with ⟨-, rfl⟩ | ⟨sender, sender', a, -, -, hsender⟩ |
    ⟨reader, reader', a, -, -, hreader⟩
  · simp
  · exact Sender.step_silent hsender
  · exact Reader.step_silent hreader

end Silent

namespace Dialer

variable {P : Platform} {participant : ParticipantConfig} {config : AppConfig} {t t' : Dialer}
  {p : Participant} {w : World} {act : ParticipantAct} {out : List Effect}

/-- What the phase of the participant says about its dials. -/
def Stands (p : Participant) (dials : List Dial) : Prop :=
  match p.phase with
  | .spawned _ | .ramping _ => dials = [] ∧ p.attempt = 0
  | .looping | .backingOff _ _ =>
    dials.length = p.attempt ∧ ∀ d ∈ dials.head?, d.outageAfter.isSome = true
  | .dialing | .sampling (.handshake _) => ∃ d earlier, dials = d :: earlier ∧
      d.result = .pending ∧ p.attempt = d.number ∧ p.attempt = earlier.length
  | .sampling (.recovery elapsed) => ∃ d earlier time, dials = d :: earlier ∧
      d.result = .recovering time ∧ elapsed = time - p.recoveryStarted ∧ 0 < p.attempt ∧
      p.attempt = d.number ∧ p.attempt = earlier.length
  | .marking | .notifying | .connected _ => ∃ d earlier time, dials = d :: earlier ∧
      d.result = .connected time ∧ p.attempt = d.number ∧ p.attempt = earlier.length
  | .retrying _ =>
    dials.length = p.attempt + 1 ∧ ∀ d ∈ dials.head?, d.outageAfter.isSome = true
  | .returned _ | .panicked => True

variable (participant config) in
/-- What a step of the participant means for its dials. -/
inductive Goes (t : Dialer) : List Effect → List Dial → Prop where
  | dial (hfailed : ∀ d ∈ t.dials.head?, d.outageAfter.isSome = true) :
      Goes t [.add .connectionAttempts 1]
        (⟨t.dials.length, t.dials.head?.bind Dial.outageAfter, .pending,
          [.add .connectionAttempts 1]⟩ :: t.dials)
  /-- the handshake of the first dial is recorded -/
  | connect (d : Dial) (earlier : List Dial) (elapsed : Duration) (hdials : t.dials = d :: earlier)
      (hresult : d.result = .pending) (hfirst : d.number = 0) :
      Goes t (Participant.recordConnected participant (.handshake elapsed))
        (⟨d.number, d.outage, .connected t.now,
          d.effects ++ Participant.recordConnected participant (.handshake elapsed)⟩ :: earlier)
  /-- the handshake of a later dial is recorded -/
  | reconnect (d : Dial) (earlier : List Dial) (elapsed : Duration)
      (hdials : t.dials = d :: earlier) (hresult : d.result = .pending) (hlater : 0 < d.number) :
      Goes t [.record .handshake elapsed, .add .reconnects 1]
        (⟨d.number, d.outage, .recovering t.now,
          d.effects ++ [.record .handshake elapsed, .add .reconnects 1]⟩ :: earlier)
  | recover (d : Dial) (earlier : List Dial) (time : Instant) (elapsed : Duration)
      (hdials : t.dials = d :: earlier) (hresult : d.result = .recovering time)
      (hlater : 0 < d.number) (helapsed : elapsed = time - t.participant.recoveryStarted) :
      Goes t (Participant.recordConnected participant (.recovery elapsed))
        (⟨d.number, d.outage, .connected time,
          d.effects ++ Participant.recordConnected participant (.recovery elapsed)⟩ :: earlier)
  | fail (d : Dial) (earlier : List Dial) (error : ConnectError)
      (hdials : t.dials = d :: earlier) (hresult : d.result = .pending) :
      Goes t (Participant.recordConnectFailed config error)
        (⟨d.number, d.outage, .failed t.now,
          d.effects ++ Participant.recordConnectFailed config error⟩ :: earlier)
  /-- the session ends in an error -/
  | disconnect (d : Dial) (earlier : List Dial) (time : Instant) (w : World) (failure : Failure)
      (hdials : t.dials = d :: earlier) (hresult : d.result = .connected time)
      (hattempt : t.participant.attempt = d.number) :
      Goes t (Participant.recordSessionOver participant config w t.participant (.error failure))
        (⟨d.number, d.outage, .broken time t.now, d.effects ++
          Participant.recordSessionOver participant config w t.participant (.error failure)⟩ ::
            earlier)
  /-- the connection is open, and nothing is said about reconnects -/
  | go (d : Dial) (earlier : List Dial) (out : List Effect) (hdials : t.dials = d :: earlier)
      (hsilent : ∀ e ∈ out, e.IsSilent) :
      Goes t out ({ d with effects := d.effects ++ out } :: earlier)
  | pass : Goes t [] t.dials

theorem dialsAfter_cons {d : Dial} {earlier : List Dial} (hdialing : p.isDialing = false)
    (hdials : t.dials = d :: earlier) : t.dialsAfter p out act =
      ⟨d.number, d.outage, d.resultAfter t.participant t.now act, d.effects ++ out⟩ ::
        earlier := by
  rw [dialsAfter, hdialing, hdials]
  rfl

/-- Steps that neither dial nor end a dial leave the dials as they are. -/
theorem dialsAfter_nil (hdialing : p.isDialing = false)
    (hresult : ∀ d : Dial, d.resultAfter t.participant t.now act = d.result) :
    t.dialsAfter p [] act = t.dials := by
  rw [dialsAfter, hdialing]
  cases hdials : t.dials with
  | nil => rfl
  | cons d earlier =>
    simp only [Bool.false_eq_true, if_false, hresult, List.append_nil]

theorem isDialing_of_isBetween (h : p.isBetween = true) : p.isDialing = false := by
  obtain ⟨phase, attempt, recoveryStarted⟩ := p
  cases phase with
  | dialing => cases h
  | _ => rfl

/-- A step that nothing is said about leaves the dials as they are. -/
theorem goes_pass (hdialing : p.isDialing = false)
    (hresult : ∀ d : Dial, d.resultAfter t.participant t.now act = d.result)
    (hstands : Stands p t.dials) :
    Goes participant config t [] (t.dialsAfter p [] act) ∧
      Stands p (t.dialsAfter p [] act) := by
  rw [dialsAfter_nil hdialing hresult]
  exact ⟨.pass, hstands⟩

/-- A participant that enters its loop has made no dial. -/
theorem stands_enter {dials : List Dial} (hdials : dials = []) :
    Stands (Participant.enter participant config w) dials := by
  rw [Participant.enter]
  split
  · trivial
  · simp [Stands, hdials]

/-- A participant that backs off counts the dial that failed as an attempt. -/
theorem stands_retry {dials : List Dial} {failure : Failure} {factor : ℚ}
    (hphase : p.phase = .retrying failure) (h : Stands p dials) :
    Stands (p.retry config w failure factor) dials := by
  rw [Stands, hphase] at h
  rw [Participant.retry]
  split
  · trivial
  · rw [Participant.backOff]
    -- the delay overflows, or does not end before the run, or is waited for
    split
    · trivial
    · split
      · trivial
      · exact h

/-- The end of a session, which breaks its dial if it is in error. -/
theorem goes_sessionOver {result : Except Failure Unit}
    (hphase : t.participant.phase = .connected (.returned result))
    (ht : Stands t.participant t.dials) :
    Goes participant config t (Participant.recordSessionOver participant config w t.participant
      result) (t.dialsAfter (t.participant.goto (Participant.afterSession config w result))
        (Participant.recordSessionOver participant config w t.participant result) .sessionOver) ∧
    Stands (t.participant.goto (Participant.afterSession config w result))
      (t.dialsAfter (t.participant.goto (Participant.afterSession config w result))
        (Participant.recordSessionOver participant config w t.participant result)
        .sessionOver) := by
  rw [Stands, hphase] at ht
  obtain ⟨d, earlier, time, hdials, hresult, hattempt, hlength⟩ := ht
  rw [dialsAfter_cons (isDialing_of_isBetween (Participant.isBetween_afterSession result)) hdials]
  cases result with
  | ok _ =>
    have hsame : d.resultAfter t.participant t.now .sessionOver = d.result := by
      simp only [Dial.resultAfter, hresult, hphase]
    rw [hsame]
    refine ⟨.go d earlier _ hdials ?_, trivial⟩
    simp [Participant.recordSessionOver, Effect.IsSilent]
  | error failure =>
    have hbroken : d.resultAfter t.participant t.now .sessionOver = .broken time t.now := by
      simp only [Dial.resultAfter, hresult, hphase]
    rw [hbroken]
    refine ⟨.disconnect d earlier time w failure hdials hresult hattempt, ?_⟩
    -- the outage begins with the end of the session, if the participant dials again
    rw [Participant.afterSession]
    split
    · trivial
    · simp [Stands, Participant.goto, hlength, Dial.outageAfter]

/-- With its last sample a dial is connected. -/
theorem goes_opened {sample : ConnectionSample} {phase : ParticipantPhase}
    (hphase : t.participant.phase = .sampling sample)
    (hlast : sample.isLast t.participant.attempt = true)
    (hopen : phase = .marking ∨ ∃ session, phase = .connected session)
    (ht : Stands t.participant t.dials) :
    Goes participant config t (Participant.recordConnected participant sample)
        (t.dialsAfter (t.participant.goto phase) (Participant.recordConnected participant sample)
          .sampled) ∧
      Stands (t.participant.goto phase) (t.dialsAfter (t.participant.goto phase)
        (Participant.recordConnected participant sample) .sampled) := by
  have hdialing : (t.participant.goto phase).isDialing = false := by
    rcases hopen with rfl | ⟨session, rfl⟩ <;> rfl
  have hstands : ∀ dials : List Dial, (∃ d earlier time, dials = d :: earlier ∧
      d.result = .connected time ∧ t.participant.attempt = d.number ∧
      t.participant.attempt = earlier.length) → Stands (t.participant.goto phase) dials := by
    intro dials h
    rcases hopen with rfl | ⟨session, rfl⟩ <;> exact h
  rw [Stands, hphase] at ht
  cases sample with
  | handshake elapsed =>
    obtain ⟨d, earlier, hdials, hresult, hattempt, hlength⟩ := ht
    have hfirst : t.participant.attempt = 0 := of_decide_eq_true hlast
    have hafter : d.resultAfter t.participant t.now .sampled = .connected t.now := by
      simp only [Dial.resultAfter, hresult, hphase, hfirst, Nat.lt_irrefl, if_false]
    rw [dialsAfter_cons hdialing hdials, hafter]
    exact ⟨.connect d earlier elapsed hdials hresult (hattempt.symm.trans hfirst),
      hstands _ ⟨_, _, t.now, rfl, rfl, hattempt, hlength⟩⟩
  | recovery elapsed =>
    obtain ⟨d, earlier, time, hdials, hresult, helapsed, hpos, hattempt, hlength⟩ := ht
    have hafter : d.resultAfter t.participant t.now .sampled = .connected time := by
      simp only [Dial.resultAfter, hresult, hphase]
    rw [dialsAfter_cons hdialing hdials, hafter]
    exact ⟨.recover d earlier time elapsed hdials hresult (hattempt ▸ hpos) helapsed,
      hstands _ ⟨_, _, time, rfl, rfl, hattempt, hlength⟩⟩

/-- **A step of the participant** dials, ends a dial or a session, or says nothing about
reconnects. -/
theorem goes_of_step (ht : Stands t.participant t.dials) (hnow : w.now = t.now)
    (h : t.participant.step P participant config w act = some (p, out)) :
    Goes participant config t out (t.dialsAfter p out act) ∧
      Stands p (t.dialsAfter p out act) := by
  cases Participant.steps_of_step h with
  -- the steps that return, from a phase without a connection
  | startOver | rampCut | backoffCut | leave | dialStopped | dialDeadline =>
    exact goes_pass rfl (fun _ => rfl) trivial
  | ramp _ _ hphase | redial _ _ hphase =>
    rw [Stands, hphase] at ht
    exact goes_pass rfl (fun _ => rfl) ht
  | enter endsAt hphase =>
    rw [Stands, hphase] at ht
    exact goes_pass (isDialing_of_isBetween Participant.isBetween_enter) (fun _ => rfl)
      (stands_enter ht.1)
  | dial hphase =>
    rw [Stands, hphase] at ht
    exact ⟨.dial ht.2, _, _, rfl, rfl, ht.1.symm, ht.1.symm⟩
  | connect handshakeTime hphase =>
    rw [Stands, hphase] at ht
    obtain ⟨d, earlier, hdials, hresult, hattempt, hlength⟩ := ht
    rw [dialsAfter_cons rfl hdials]
    exact ⟨.go d earlier _ hdials (by simp [Participant.countConnected, Effect.IsSilent]), _, _,
      rfl, hresult, hattempt, hlength⟩
  | reconnect elapsed hphase hpos =>
    rw [Stands, hphase] at ht
    obtain ⟨d, earlier, hdials, hresult, hattempt, hlength⟩ := ht
    have hafter : d.resultAfter t.participant t.now .sampled = .recovering t.now := by
      simp only [Dial.resultAfter, hresult, hphase, if_pos hpos]
    rw [dialsAfter_cons rfl hdials, hafter]
    refine ⟨.reconnect d earlier elapsed hdials hresult (hattempt ▸ hpos), _, _, t.now, rfl, rfl,
      ?_, hpos, hattempt, hlength⟩
    rw [hnow]
    rfl
  | openRequired sample hphase hlast => exact goes_opened hphase hlast (.inl rfl) ht
  | openSession sample hphase hlast => exact goes_opened hphase hlast (.inr ⟨_, rfl⟩) ht
  | connectRetried error source hphase =>
    rw [Stands, hphase] at ht
    obtain ⟨d, earlier, hdials, hresult, hattempt, hlength⟩ := ht
    rw [dialsAfter_cons rfl hdials]
    refine ⟨.fail d earlier error hdials hresult, ?_⟩
    simp [Stands, Participant.goto, hlength, Dial.outageAfter, Dial.resultAfter]
  | connectFails error source hphase =>
    rw [Stands, hphase] at ht
    obtain ⟨d, earlier, hdials, hresult, hattempt, hlength⟩ := ht
    rw [dialsAfter_cons rfl hdials]
    exact ⟨.fail d earlier error hdials hresult, trivial⟩
  -- the effects on an open connection are those of its session, or mark the participant ready
  | marked hphase | notified hphase =>
    rw [Stands, hphase] at ht
    obtain ⟨d, earlier, time, hdials, hresult, hattempt, hlength⟩ := ht
    rw [dialsAfter_cons rfl hdials]
    exact ⟨.go d earlier _ hdials (by simp [Effect.IsSilent]), _, _, time, rfl, hresult, hattempt,
      hlength⟩
  | session session session' a out hphase hsession =>
    rw [Stands, hphase] at ht
    obtain ⟨d, earlier, time, hdials, hresult, hattempt, hlength⟩ := ht
    rw [dialsAfter_cons rfl hdials]
    exact ⟨.go d earlier out hdials (Session.step_silent hsession), _, _, time, rfl, hresult,
      hattempt, hlength⟩
  | sessionOver result hphase => exact goes_sessionOver hphase ht
  | retry factor failure hphase =>
    exact goes_pass (isDialing_of_isBetween (Participant.isBetween_retry failure factor))
      (fun _ => rfl) (stands_retry hphase ht)

theorem exists_of_step {a : DialerAct} (h : (machine P participant config).step t a = some t') :
    (∃ duration, t' = { t with now := t.now + duration }) ∨
    ∃ w act p out, w.now = t.now ∧
      t.participant.step P participant config w act = some (p, out) ∧
      t' = ⟨p, t.now, t.startedAfter act, t.dialsAfter p out act, t.log ++ out⟩ := by
  cases a with
  | elapse duration => exact .inl ⟨duration, (Option.some.inj h).symm⟩
  | act w act =>
    obtain ⟨⟨p, out⟩, hstep, rfl⟩ := Option.map_eq_some_iff.mp h
    exact .inr ⟨{ w with now := t.now }, act, p, out, rfl, hstep, rfl⟩

/-- What is done is done in a dial. -/
theorem Goes.effects {dials : List Dial} (h : Goes participant config t out dials) :
    dials.reverse.flatMap (·.effects) = t.dials.reverse.flatMap (·.effects) ++ out := by
  cases h with
  | dial hfailed => simp
  | connect d earlier elapsed hdials => simp [hdials]
  | reconnect d earlier elapsed hdials => simp [hdials]
  | recover d earlier time elapsed hdials => simp [hdials]
  | fail d earlier error hdials => simp [hdials]
  | disconnect d earlier time w failure hdials => simp [hdials]
  | go d earlier out hdials hsilent => simp [hdials]
  | pass => simp

end Dialer

/-! ## The counters of reconnects -/

namespace Participant

variable (participant : ParticipantConfig) {config : AppConfig} (w : World) (p : Participant)

theorem total_recordConnected (sample : ConnectionSample) :
    total (Effect.added .reconnects) (recordConnected participant sample) = 0 ∧
      total (Effect.added .reconnectFailures) (recordConnected participant sample) = 0 := by
  cases sample <;> simp [recordConnected, recordSample, Effect.added]

theorem total_recordConnectFailed (henabled : config.reconnect.enabled = true)
    (error : ConnectError) :
    total (Effect.added .reconnects) (recordConnectFailed config error) = 0 ∧
      total (Effect.added .reconnectFailures) (recordConnectFailed config error) = 1 := by
  rw [recordConnectFailed, if_pos henabled]
  split <;> simp [Effect.added]

variable (config) in
theorem total_recordSessionOver (failure : Failure) :
    total (Effect.added .reconnects)
        (recordSessionOver participant config w p (.error failure)) = 0 ∧
      total (Effect.added .reconnectFailures)
        (recordSessionOver participant config w p (.error failure)) =
          if 0 < p.attempt then 1 else 0 := by
  simp only [recordSessionOver]
  split <;> split <;> simp [Effect.added]

end Participant

theorem total_of_isSilent {out : List Effect} (h : ∀ e ∈ out, e.IsSilent) :
    total (Effect.added .reconnects) out = 0 ∧
      total (Effect.added .reconnectFailures) out = 0 := by
  refine ⟨total_eq_zero fun e he => ?_, total_eq_zero fun e he => ?_⟩
  · cases e with
    | add counter n => exact if_neg (h _ he).1
    | _ => rfl
  · cases e with
    | add counter n => exact if_neg (h _ he).2
    | _ => rfl

namespace Dial

/-- What is added to a counter from the start of a dial up to the next one. -/
def added (d : Dial) (counter : Counter) : ℕ := total (Effect.added counter) d.effects

/-- What a dial and its session add to the counters of reconnects. A dial after the first one is
counted once, as a reconnect if it succeeds and as a failure if it fails, and the session of such a
dial is counted as a failure if it ends in an error. The first dial is not counted if it
succeeds. -/
def Classified (d : Dial) : Prop :=
  match d.result with
  | .pending => d.added .reconnects = 0 ∧ d.added .reconnectFailures = 0
  | .failed _ => 0 < d.number → d.added .reconnects = 0 ∧ d.added .reconnectFailures = 1
  | .recovering _ | .connected _ =>
    d.added .reconnects = (if 0 < d.number then 1 else 0) ∧ d.added .reconnectFailures = 0
  | .broken _ _ =>
    d.added .reconnects = (if 0 < d.number then 1 else 0) ∧
      d.added .reconnectFailures = if 0 < d.number then 1 else 0

end Dial

namespace Dialer

variable {P : Platform} {participant : ParticipantConfig} {config : AppConfig} {t t' : Dialer}
  {out : List Effect}

/-- What holds of all dials still does when the last one becomes one of which it holds. -/
theorem forall_mem_renew {Q : Dial → Prop} {d d' : Dial} {earlier : List Dial}
    (hdials : t.dials = d :: earlier) (ht : ∀ d ∈ t.dials, Q d) (hlast : Q d → Q d') :
    ∀ e ∈ d' :: earlier, Q e := by
  rw [hdials] at ht
  obtain ⟨hd, hearlier⟩ := List.forall_mem_cons.mp ht
  exact List.forall_mem_cons.mpr ⟨hlast hd, hearlier⟩

theorem Goes.classified {dials : List Dial} (henabled : config.reconnect.enabled = true)
    (h : Goes participant config t out dials) (ht : ∀ d ∈ t.dials, d.Classified) :
    ∀ d ∈ dials, d.Classified := by
  cases h with
  | dial hfailed =>
    refine List.forall_mem_cons.mpr ⟨?_, ht⟩
    simp [Dial.Classified, Dial.added, Effect.added]
  | connect d earlier elapsed hdials hresult hfirst =>
    refine forall_mem_renew hdials ht fun hd => ?_
    obtain ⟨hreconnects, hfailures⟩ :=
      Participant.total_recordConnected participant (.handshake elapsed)
    simp only [Dial.Classified, hresult, Dial.added] at hd ⊢
    simp only [total_append, hd, hreconnects, hfailures, hfirst, Nat.lt_irrefl, if_false,
      Nat.add_zero, and_self]
  | reconnect d earlier elapsed hdials hresult hlater =>
    refine forall_mem_renew hdials ht fun hd => ?_
    simp only [Dial.Classified, hresult, Dial.added] at hd ⊢
    simp [total_append, hd, hlater, Effect.added]
  | recover d earlier time elapsed hdials hresult =>
    refine forall_mem_renew hdials ht fun hd => ?_
    obtain ⟨hreconnects, hfailures⟩ :=
      Participant.total_recordConnected participant (.recovery elapsed)
    simp only [Dial.Classified, hresult, Dial.added] at hd ⊢
    simpa only [total_append, hreconnects, hfailures, Nat.add_zero] using hd
  | fail d earlier error hdials hresult =>
    refine forall_mem_renew hdials ht fun hd => ?_
    obtain ⟨hreconnects, hfailures⟩ := Participant.total_recordConnectFailed henabled error
    simp only [Dial.Classified, hresult, Dial.added] at hd ⊢
    simp only [total_append, hd, hreconnects, hfailures, implies_true, and_self]
  | disconnect d earlier time w failure hdials hresult hattempt =>
    -- the dial was counted as a reconnect, and its session is counted as a failed one
    refine forall_mem_renew hdials ht fun hd => ?_
    obtain ⟨hreconnects, hfailures⟩ :=
      Participant.total_recordSessionOver participant config w t.participant failure
    simp only [Dial.Classified, hresult, Dial.added] at hd ⊢
    simp only [total_append, hd, hreconnects, hfailures, hattempt, Nat.zero_add, Nat.add_zero,
      and_self]
  | go d earlier out hdials hsilent =>
    refine forall_mem_renew hdials ht fun hd => ?_
    obtain ⟨hreconnects, hfailures⟩ := total_of_isSilent hsilent
    simpa only [Dial.Classified, Dial.added, total_append, hreconnects, hfailures, Nat.add_zero]
      using hd
  | pass => exact ht

/-- What holds of a participant that has made some dials. -/
structure Kept (t : Dialer) : Prop where
  stands : Stands t.participant t.dials
  classified : ∀ d ∈ t.dials, d.Classified
  log : t.log = t.dials.reverse.flatMap (·.effects)

theorem kept_step {a : DialerAct} (henabled : config.reconnect.enabled = true) (ht : t.Kept)
    (h : (machine P participant config).step t a = some t') : t'.Kept := by
  rcases exists_of_step h with ⟨duration, rfl⟩ | ⟨w, act, p, out, hnow, hstep, rfl⟩
  · exact ⟨ht.stands, ht.classified, ht.log⟩
  · obtain ⟨hgoes, hstands⟩ := goes_of_step ht.stands hnow hstep
    refine ⟨hstands, hgoes.classified henabled ht.classified, ?_⟩
    simp only
    rw [hgoes.effects, ht.log]

/-- **What the dials of a participant add to the counters of reconnects**, for each dial of any
run; and what the participant does, it does in its dials. -/
theorem reconnects_classified {delay : Duration} {acts : List DialerAct}
    (henabled : config.reconnect.enabled = true)
    (h : (machine P participant config).exec (spawn delay) acts = some t) :
    (∀ d ∈ t.dials, d.Classified) ∧ t.log = t.dials.reverse.flatMap (·.effects) := by
  have hspawn : (spawn delay).Kept := ⟨⟨rfl, rfl⟩, by simp [spawn], rfl⟩
  have hkept := Machine.exec_invariant (fun _ _ _ => kept_step henabled) hspawn h
  exact ⟨hkept.classified, hkept.log⟩

/-! ## A reconnected session that fails -/

namespace Flaky

def peer : ParticipantConfig := { id := "peer", role := .receiveOnly }

/-- A participant that dials again, without jitter. -/
def patient : AppConfig where
  authorization := { acknowledged := true }
  participants := [peer]
  reconnect := { enabled := true, jitterPercent := 0 }

/-- A step in the world at the start of a run. -/
def act (a : ParticipantAct) : DialerAct := .act (World.initial false) a

/-- A dial that succeeds. -/
def connecting (samples : ℕ) : List DialerAct :=
  [act .enterLoop, act (.connected 0)] ++ List.replicate samples (act .sampled)

/-- The peer closes the session. -/
def closing : List DialerAct := [act (.session (.reader .peerClosed)), act .sessionOver]

/-- The peer closes two sessions, the second one after a reconnect. -/
def redialing : List DialerAct :=
  [act .start, act .delayOver] ++ connecting 1 ++ closing ++
    [act (.retry 1), .elapse (Duration.fromMillis 250), act .delayOver] ++ connecting 2 ++ closing

/-- The run, and what its dials add to the counters of reconnects. -/
theorem exists_redialed : ∃ t, (machine Reference.platform peer patient).exec (spawn 0) redialing =
    some t ∧ t.dials.map (fun d => (d.number, d.result, d.added .reconnects,
      d.added .reconnectFailures)) =
        [(1, .broken 250000000 250000000, 1, 1), (0, .broken 0 0, 0, 0)] := by
  have hexec : ((machine Reference.platform peer patient).exec (spawn 0) redialing).map
      (fun t => t.dials.map fun d => (d.number, d.result, d.added .reconnects,
        d.added .reconnectFailures)) =
      some [(1, .broken 250000000 250000000, 1, 1), (0, .broken 0 0, 0, 0)] := by decide +kernel
  exact Option.map_eq_some_iff.mp hexec

end Flaky

/-- The dials of a participant whose reconnected session fails. -/
theorem reconnects_classified_redialed :
    ∃ t, (machine Reference.platform Flaky.peer Flaky.patient).exec (spawn 0) Flaky.redialing =
        some t ∧ t.dials.length = 2 ∧ ∀ d ∈ t.dials, d.Classified := by
  obtain ⟨t, hexec, hdials⟩ := Flaky.exists_redialed
  have hlength := congrArg List.length hdials
  rw [List.length_map] at hlength
  exact ⟨t, hexec, hlength, (reconnects_classified rfl hexec).1⟩

/-- A later dial that succeeds is counted as a reconnect, and when its session ends in an error
also as a failed reconnect. -/
theorem reconnect_counted_twice :
    Flaky.patient.reconnect.enabled = true ∧
      ∃ t, (machine Reference.platform Flaky.peer Flaky.patient).exec (spawn 0) Flaky.redialing =
        some t ∧ ∃ d ∈ t.dials, 0 < d.number ∧
          (∃ connected time, d.result = .broken connected time) ∧
          d.added .reconnects = 1 ∧ d.added .reconnectFailures = 1 := by
  obtain ⟨t, hexec, hdials⟩ := Flaky.exists_redialed
  refine ⟨rfl, t, hexec, ?_⟩
  have hmem := hdials ▸ List.mem_cons_self
  obtain ⟨d, hd, hvalues⟩ := List.mem_map.mp hmem
  simp only [Prod.mk.injEq] at hvalues
  obtain ⟨hnumber, hresult, hreconnects, hfailures⟩ := hvalues
  exact ⟨d, hd, by omega, ⟨_, _, hresult⟩, hreconnects, hfailures⟩

end Dialer

end TakBench
