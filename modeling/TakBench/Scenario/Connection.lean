import TakBench.Library.Machine
import TakBench.Scenario.Run

/-!
# The connections of a participant

The effects of a participant tell the story of its connections: a dial is counted, it succeeds or
fails, a connection that succeeds is announced, and once it is closed its failure may be counted.
`Link` is the automaton that accepts such a story. It knows nothing of the state of a participant
and reads the effects one by one, so what it says holds also between two effects of a step, when
other tasks may look at the counters.

## Main definitions

* `Link`, `Link.machine`: the stories of the connections of a participant
* `Participant.Links`: the states of the automaton in which a participant may be
* `Task.dials`: the dials of a task

## Main results

* `Participant.links_step`: the effects of a step go on with the story
* `Run.linked_invariant`: the log of every task is such a story
* `Run.dialed_invariant`: a task dials once for each attempt
-/

namespace TakBench

/-! ## The story of a connection -/

/-- Where the connections of a participant stand. -/
inductive Link where
  /-- nothing has been dialed -/
  | idle
  | dialing
  /-- the success is counted -/
  | succeeded
  /-- the connection is counted as active -/
  | opened
  /-- the connection is counted as a reconnect -/
  | reopened
  | connected
  | ready
  /-- the connection is no longer counted as active -/
  | closed
  | disconnected
  /-- the failure is counted -/
  | failed
  /-- the failure is counted as one of TLS -/
  | failedTls
  /-- the failure is counted as one of a reconnect -/
  | failedReconnect
  deriving DecidableEq

namespace Link

/-- May a dial follow? -/
def mayDial : Link → Bool
  | .idle | .failed | .failedTls | .failedReconnect => true
  | _ => false

/-- Is the connection counted as active? -/
def isActive : Link → Bool
  | .opened | .reopened | .connected | .ready => true
  | _ => false

/-- Is no connection open or announced? -/
def isOver : Link → Bool
  | .idle | .dialing | .disconnected | .failed | .failedTls | .failedReconnect => true
  | _ => false

/-- The next effect of the participant `id`; effects that say nothing about connections are passed
over. -/
def step (id : String) (link : Link) : Effect → Option Link
  | .add .connectionAttempts n => if n = 1 ∧ link.mayDial then some .dialing else none
  | .add .connectionSuccesses n => if n = 1 ∧ link = .dialing then some .succeeded else none
  | .add .activeConnections n => if n = 1 ∧ link = .succeeded then some .opened else none
  | .add .reconnects n => if n = 1 ∧ link = .opened then some .reopened else none
  | .emit (.participantConnected name) =>
    if name = id ∧ (link = .opened ∨ link = .reopened) then some .connected else none
  | .emit (.participantReady name) =>
    if name = id ∧ link = .connected then some .ready else none
  | .sub counter n =>
    if counter = .activeConnections ∧ n = 1 ∧ link = .ready then some .closed else none
  | .emit (.participantDisconnected name _) =>
    if name = id ∧ link = .closed then some .disconnected else none
  | .add .connectionFailures n =>
    if n = 1 ∧ (link = .dialing ∨ link = .disconnected) then some .failed else none
  | .add .tlsFailures n => if n = 1 ∧ link = .failed then some .failedTls else none
  | .add .reconnectFailures n =>
    if n = 1 ∧ (link = .failed ∨ link = .failedTls) then some .failedReconnect else none
  | .emit (.runCompleted _) => none
  | _ => some link

/-- The stories of the connections of a participant. -/
def machine (id : String) : Machine Link Effect where
  step := step id

end Link

/-! ## Counting -/

namespace Effect

/-- What an effect adds to a counter. -/
def added (counter : Counter) : Effect → ℕ
  | .add other n => if other = counter then n else 0
  | _ => 0

/-- What an effect takes from a counter. -/
def subtracted (counter : Counter) : Effect → ℕ
  | .sub other n => if other = counter then n else 0
  | _ => 0

/-- Nothing is said about connections. -/
def IsNeutral : Effect → Prop
  | .add counter _ => counter.isEvent = true
  | .sub _ _ | .emit _ => False
  | _ => True

end Effect

namespace Link

variable {id : String} {link link' : Link} {e : Effect} {log : List Effect} {f g : Effect → ℕ}

/-- What an effect of the participant `id` means for its connections. -/
inductive Moves (id : String) : Link → Effect → Link → Prop where
  | dial {link : Link} (h : link.mayDial = true) :
      Moves id link (.add .connectionAttempts 1) .dialing
  | succeed : Moves id .dialing (.add .connectionSuccesses 1) .succeeded
  | open : Moves id .succeeded (.add .activeConnections 1) .opened
  | reopen : Moves id .opened (.add .reconnects 1) .reopened
  | connect {link : Link} (h : link = .opened ∨ link = .reopened) :
      Moves id link (.emit (.participantConnected id)) .connected
  | ready : Moves id .connected (.emit (.participantReady id)) .ready
  | close : Moves id .ready (.sub .activeConnections 1) .closed
  | disconnect (reason : DisconnectReason) :
      Moves id .closed (.emit (.participantDisconnected id reason)) .disconnected
  | fail {link : Link} (h : link = .dialing ∨ link = .disconnected) :
      Moves id link (.add .connectionFailures 1) .failed
  | failTls : Moves id .failed (.add .tlsFailures 1) .failedTls
  | failReconnect {link : Link} (h : link = .failed ∨ link = .failedTls) :
      Moves id link (.add .reconnectFailures 1) .failedReconnect
  | pass {link : Link} {e : Effect} (h : e.IsNeutral) : Moves id link e link

/-- **What a step of a story means.** -/
theorem moves_of_step (h : step id link e = some link') : Moves id link e link' := by
  cases e with
  | add counter n =>
    cases counter with
    | connectionAttempts =>
      obtain ⟨⟨rfl, hlink⟩, hnext⟩ := Option.ite_none_right_eq_some.mp h
      obtain rfl := Option.some.inj hnext
      exact .dial hlink
    | connectionSuccesses =>
      obtain ⟨⟨rfl, rfl⟩, hnext⟩ := Option.ite_none_right_eq_some.mp h
      obtain rfl := Option.some.inj hnext
      exact .succeed
    | activeConnections =>
      obtain ⟨⟨rfl, rfl⟩, hnext⟩ := Option.ite_none_right_eq_some.mp h
      obtain rfl := Option.some.inj hnext
      exact .open
    | reconnects =>
      obtain ⟨⟨rfl, rfl⟩, hnext⟩ := Option.ite_none_right_eq_some.mp h
      obtain rfl := Option.some.inj hnext
      exact .reopen
    | connectionFailures =>
      obtain ⟨⟨rfl, hlink⟩, hnext⟩ := Option.ite_none_right_eq_some.mp h
      obtain rfl := Option.some.inj hnext
      exact .fail hlink
    | tlsFailures =>
      obtain ⟨⟨rfl, rfl⟩, hnext⟩ := Option.ite_none_right_eq_some.mp h
      obtain rfl := Option.some.inj hnext
      exact .failTls
    | reconnectFailures =>
      obtain ⟨⟨rfl, hlink⟩, hnext⟩ := Option.ite_none_right_eq_some.mp h
      obtain rfl := Option.some.inj hnext
      exact .failReconnect hlink
    -- the counters of events
    | _ =>
      obtain rfl := Option.some.inj h
      exact .pass rfl
  | sub counter n =>
    obtain ⟨⟨rfl, rfl, rfl⟩, hnext⟩ := Option.ite_none_right_eq_some.mp h
    obtain rfl := Option.some.inj hnext
    exact .close
  | emit event =>
    cases event with
    | participantConnected name =>
      obtain ⟨⟨rfl, hlink⟩, hnext⟩ := Option.ite_none_right_eq_some.mp h
      obtain rfl := Option.some.inj hnext
      exact .connect hlink
    | participantReady name =>
      obtain ⟨⟨rfl, rfl⟩, hnext⟩ := Option.ite_none_right_eq_some.mp h
      obtain rfl := Option.some.inj hnext
      exact .ready
    | participantDisconnected name reason =>
      obtain ⟨⟨rfl, rfl⟩, hnext⟩ := Option.ite_none_right_eq_some.mp h
      obtain rfl := Option.some.inj hnext
      exact .disconnect reason
    | runCompleted status => cases h
  | _ =>
    obtain rfl := Option.some.inj h
    exact .pass trivial

/-- What an effect means, it does. -/
theorem step_of_moves (h : Moves id link e link') : (machine id).step link e = some link' := by
  cases h with
  | dial hlink => exact if_pos ⟨rfl, hlink⟩
  | connect hlink => exact if_pos ⟨rfl, hlink⟩
  | fail hlink => exact if_pos ⟨rfl, hlink⟩
  | failReconnect hlink => exact if_pos ⟨rfl, hlink⟩
  | ready => exact if_pos ⟨rfl, rfl⟩
  | disconnect reason => exact if_pos ⟨rfl, rfl⟩
  | pass hneutral =>
    cases e with
    | add counter n => cases counter <;> first | rfl | cases hneutral
    | sub counter n => exact hneutral.elim
    | emit event => exact hneutral.elim
    | _ => rfl
  | _ => rfl

/-- One more effect in front of a story. -/
theorem exec_moves {link'' : Link} (h : Moves id link e link')
    (hlog : (machine id).exec link' log = some link'') :
    (machine id).exec link (e :: log) = some link'' :=
  Machine.exec_step (step_of_moves h) hlog

/-! ## What the counters say of a story -/

theorem added_of_isNeutral {counter : Counter} (h : e.IsNeutral)
    (hcounter : counter.isEvent = false) : e.added counter = 0 := by
  cases e with
  | add other n =>
    refine if_neg ?_
    rintro rfl
    exact Bool.eq_false_iff.mp hcounter h
  | _ => rfl

theorem subtracted_of_isNeutral {counter : Counter} (h : e.IsNeutral) :
    e.subtracted counter = 0 := by
  cases e with
  | sub other n => exact h.elim
  | _ => rfl

/-- A counter that is paid for by another one, or by the credit of the link. -/
theorem total_added_le {spent earned : Counter} (credit : Link → ℕ)
    (h : (machine id).exec .idle log = some link) (hidle : credit .idle = 0)
    (hspent : spent.isEvent = false)
    (hmoves : ∀ link e link', Moves id link e link' → ¬ e.IsNeutral →
      e.added spent + credit link' ≤ e.added earned + credit link) :
    total (Effect.added spent) log ≤ total (Effect.added earned) log := by
  have hcredit := Machine.exec_credit (m := machine id) credit (Effect.added spent)
    (Effect.added earned) ?_ h
  · rw [hidle, Nat.add_zero] at hcredit
    exact Nat.le_of_add_right_le hcredit
  · intro link e link' hstep
    by_cases hneutral : e.IsNeutral
    · have hsame : link' = link := by
        cases moves_of_step hstep <;> first | rfl | cases hneutral
      rw [added_of_isNeutral hneutral hspent, hsame]
      exact Nat.add_le_add_right (Nat.zero_le _) _
    · exact hmoves link e link' (moves_of_step hstep) hneutral

section Counters

variable (h : (machine id).exec .idle log = some link)

include h

/-- A dial succeeds at most once. -/
theorem successes_le_attempts : total (Effect.added .connectionSuccesses) log ≤
    total (Effect.added .connectionAttempts) log := by
  refine total_added_le (fun link => if link = .dialing then 1 else 0) h rfl rfl ?_
  intro link e link' hmove hneutral
  cases hmove with
  | pass hpass => exact absurd hpass hneutral
  | _ => simp_all [Effect.added]

/-- A dial fails at most once, be it at once or at the end of its session. -/
theorem failures_le_attempts : total (Effect.added .connectionFailures) log ≤
    total (Effect.added .connectionAttempts) log := by
  refine total_added_le
    (fun link => if link = .dialing ∨ link = .succeeded ∨ link.isActive ∨ link = .closed ∨
      link = .disconnected then 1 else 0) h rfl rfl ?_
  intro link e link' hmove hneutral
  cases hmove with
  | pass hpass => exact absurd hpass hneutral
  | connect hlink => rcases hlink with rfl | rfl <;> simp [Effect.added, isActive]
  | fail hlink => rcases hlink with rfl | rfl <;> simp [Effect.added, isActive]
  | failReconnect hlink => rcases hlink with rfl | rfl <;> simp [Effect.added, isActive]
  | _ => simp [Effect.added, isActive]

/-- A failure is one of TLS at most once. -/
theorem tlsFailures_le_failures : total (Effect.added .tlsFailures) log ≤
    total (Effect.added .connectionFailures) log := by
  refine total_added_le (fun link => if link = .failed then 1 else 0) h rfl rfl ?_
  intro link e link' hmove hneutral
  cases hmove with
  | pass hpass => exact absurd hpass hneutral
  | _ => simp_all [Effect.added]

/-- A failure is one of a reconnect at most once. -/
theorem reconnectFailures_le_failures : total (Effect.added .reconnectFailures) log ≤
    total (Effect.added .connectionFailures) log := by
  refine total_added_le (fun link => if link = .failed ∨ link = .failedTls then 1 else 0)
    h rfl rfl ?_
  intro link e link' hmove hneutral
  cases hmove with
  | pass hpass => exact absurd hpass hneutral
  | _ => simp_all [Effect.added]

/-- A success is a reconnect at most once. -/
theorem reconnects_le_successes : total (Effect.added .reconnects) log ≤
    total (Effect.added .connectionSuccesses) log := by
  refine total_added_le (fun link => if link = .succeeded ∨ link = .opened then 1 else 0)
    h rfl rfl ?_
  intro link e link' hmove hneutral
  cases hmove with
  | pass hpass => exact absurd hpass hneutral
  | connect hlink => rcases hlink with rfl | rfl <;> simp [Effect.added]
  | _ => simp_all [Effect.added]

/-- A connection is counted as active until it is closed. -/
theorem added_active : total (Effect.added .activeConnections) log =
    total (Effect.subtracted .activeConnections) log + if link.isActive then 1 else 0 := by
  refine Machine.exec_balance (m := machine id) (fun link => if link.isActive then 1 else 0)
    (Effect.added .activeConnections) (Effect.subtracted .activeConnections) ?_ h
  intro link e link' hstep
  cases moves_of_step hstep with
  | dial hlink => cases link <;> simp_all [Effect.added, Effect.subtracted, isActive, mayDial]
  | connect hlink => rcases hlink with rfl | rfl <;> rfl
  | fail hlink => rcases hlink with rfl | rfl <;> rfl
  | failReconnect hlink => rcases hlink with rfl | rfl <;> rfl
  | pass hneutral =>
    rw [added_of_isNeutral hneutral rfl, subtracted_of_isNeutral hneutral]
  | _ => rfl

/-- Nothing is taken from the other counters. -/
theorem subtracted_eq_zero {counter : Counter} (hcounter : counter ≠ .activeConnections) :
    total (Effect.subtracted counter) log = 0 := by
  have hbalance := Machine.exec_balance (m := machine id) (fun _ => 0)
    (Effect.subtracted counter) (fun _ => 0) ?_ h
  · simpa [total] using hbalance
  · intro link e link' hstep
    cases moves_of_step hstep with
    | close => simp [Effect.subtracted, hcounter.symm]
    | pass hneutral => rw [subtracted_of_isNeutral hneutral]
    | _ => rfl

end Counters

end Link

/-! ## The story of a participant -/

theorem Effect.OfSession.isNeutral {e : Effect} (h : e.OfSession) : e.IsNeutral := by
  cases e with
  | add counter n => exact h
  | sub counter n => exact h.elim
  | emit event => exact h.elim
  | _ => trivial

/-- Effects that say nothing about connections are passed over. -/
theorem Link.exec_of_isNeutral {id : String} {link : Link} {out : List Effect}
    (h : ∀ e ∈ out, e.IsNeutral) : (machine id).exec link out = some link := by
  induction out with
  | nil => rfl
  | cons e out ih =>
    exact exec_moves (.pass (h e List.mem_cons_self))
      (ih fun e' he' => h e' (List.mem_cons_of_mem e he'))

/-- Where a connection stands that waits for a sample. -/
def ConnectionSample.link : ConnectionSample → Link
  | .handshake _ => .opened
  | .recovery _ => .reopened

namespace Participant

variable {P : Platform} {participant : ParticipantConfig} {config : AppConfig} {w : World}
  {p p' : Participant} {act : ParticipantAct} {out : List Effect} {link : Link}

/-- How often a participant may dial again. -/
def maxRedials (config : AppConfig) : ℕ :=
  if config.reconnect.enabled then config.reconnect.maxAttempts.toNat else 0

/-- Where the connections of a participant stand in a phase, and how often it has dialed. -/
def Connects (config : AppConfig) (p : Participant) (link : Link) (dials : ℕ) : Prop :=
  match p.phase with
  | .spawned _ | .ramping _ => link.mayDial = true ∧ dials = 0
  | .looping | .backingOff _ _ =>
    link.mayDial = true ∧ dials ≤ p.attempt ∧ p.attempt ≤ maxRedials config
  | .dialing => link = .dialing ∧ dials ≤ p.attempt + 1 ∧ p.attempt ≤ maxRedials config
  | .sampling sample =>
    link = sample.link ∧ dials ≤ p.attempt + 1 ∧ p.attempt ≤ maxRedials config
  | .marking | .notifying | .connected _ =>
    link = .ready ∧ dials ≤ p.attempt + 1 ∧ p.attempt ≤ maxRedials config
  | .retrying _ => link.mayDial = true ∧ dials ≤ p.attempt + 1 ∧ p.attempt ≤ maxRedials config ∧
      config.reconnect.enabled = true
  | .returned _ | .panicked => link.isOver = true ∧ dials ≤ maxRedials config + 1

variable {dials : ℕ}

theorem isOver_of_mayDial (h : link.mayDial = true) : link.isOver = true := by
  cases link <;> first | rfl | cases h

/-- The story of a new connection, up to its last sample. -/
theorem exec_recordConnected (sample : ConnectionSample) :
    (Link.machine participant.id).exec sample.link (recordConnected participant sample) =
      some .ready := by
  cases sample with
  | handshake elapsed =>
    exact Link.exec_moves (.pass trivial)
      (Link.exec_moves (.connect (.inl rfl)) (Link.exec_moves .ready Machine.exec_nil))
  -- after a failure the connection is a reconnect
  | recovery elapsed =>
    exact Link.exec_moves (.pass trivial)
      (Link.exec_moves (.connect (.inr rfl)) (Link.exec_moves .ready Machine.exec_nil))

/-- The story of a dial that fails. -/
theorem exec_recordConnectFailed (participant : ParticipantConfig) (config : AppConfig)
    (error : ConnectError) : ∃ link,
    (Link.machine participant.id).exec .dialing (recordConnectFailed config error) = some link ∧
      link.mayDial = true := by
  rw [recordConnectFailed]
  split <;> split <;> exact ⟨_, rfl, rfl⟩

/-- The story of a session that ends well. -/
theorem exec_recordSessionOver_ok :
    (Link.machine participant.id).exec .ready
      (recordSessionOver participant config w p (.ok ())) = some .disconnected :=
  Link.exec_moves .close (Link.exec_moves (.disconnect _) Machine.exec_nil)

/-- The story of a session that fails. -/
theorem exec_recordSessionOver_error (participant : ParticipantConfig) (config : AppConfig)
    (w : World) (failure : Failure) : ∃ link,
    (Link.machine participant.id).exec .ready
      (recordSessionOver participant config w p (.error failure)) = some link ∧
      link.mayDial = true := by
  obtain ⟨link, hexec, hlink⟩ : ∃ link, (Link.machine participant.id).exec .failed
      ((if config.tls.enabled && isTlsFailure failure then [.add .tlsFailures 1] else []) ++
        if 0 < p.attempt then [.add .reconnectFailures 1] else []) = some link ∧
      link.mayDial = true := by
    split <;> split <;> exact ⟨_, rfl, rfl⟩
  exact ⟨link, Link.exec_moves .close (Link.exec_moves (.disconnect _)
    (Link.exec_moves (.fail (.inr rfl)) hexec)), hlink⟩

/-- No dial is counted but at the head of the loop. -/
theorem total_attempts_recordConnected (sample : ConnectionSample) :
    total (Effect.added .connectionAttempts) (recordConnected participant sample) = 0 := by
  cases sample <;> simp [recordConnected, recordSample, Effect.added]

theorem total_attempts_recordConnectFailed (error : ConnectError) :
    total (Effect.added .connectionAttempts) (recordConnectFailed config error) = 0 := by
  rw [recordConnectFailed]
  split <;> split <;> simp [Effect.added]

theorem total_attempts_recordSessionOver (result : Except Failure Unit) :
    total (Effect.added .connectionAttempts)
      (recordSessionOver participant config w p result) = 0 := by
  cases result with
  | ok _ => simp [recordSessionOver, Effect.added]
  | error failure =>
    simp only [recordSessionOver]
    split <;> split <;> simp [Effect.added]

/-- **The effects of a step go on with the story** of the connections. -/
theorem connects_step (h : p.step P participant config w act = some (p', out))
    (hp : p.Connects config link dials) :
    ∃ link', (Link.machine participant.id).exec link out = some link' ∧
      p'.Connects config link' (dials + total (Effect.added .connectionAttempts) out) := by
  cases steps_of_step h with
  | startOver _ hphase | rampCut _ hphase =>
    rw [Connects, hphase] at hp
    exact ⟨link, rfl, isOver_of_mayDial hp.1, by simp [hp.2]⟩
  | ramp _ _ hphase | redial _ _ hphase =>
    rw [Connects, hphase] at hp
    exact ⟨link, rfl, hp⟩
  | enter endsAt hphase =>
    rw [Connects, hphase] at hp
    refine ⟨link, rfl, ?_⟩
    rw [enter]
    split
    · exact ⟨isOver_of_mayDial hp.1, by simp [hp.2]⟩
    · exact ⟨hp.1, hp.2.le, Nat.zero_le _⟩
  | backoffCut _ _ hphase | leave hphase =>
    rw [Connects, hphase] at hp
    obtain ⟨hlink, hdials, hattempt⟩ := hp
    exact ⟨link, rfl, isOver_of_mayDial hlink, (hdials.trans hattempt).trans (Nat.le_succ _)⟩
  | dial hphase =>
    rw [Connects, hphase] at hp
    obtain ⟨hlink, hdials, hattempt⟩ := hp
    -- a dial is counted
    refine ⟨.dialing, ?_, rfl, Nat.add_le_add_right hdials 1, hattempt⟩
    exact Link.exec_moves (.dial hlink) Machine.exec_nil
  | connect handshakeTime hphase =>
    rw [Connects, hphase] at hp
    obtain ⟨rfl, hdials⟩ := hp
    exact ⟨.opened, Link.exec_moves .succeed (Link.exec_moves .open Machine.exec_nil), rfl, hdials⟩
  | reconnect elapsed hphase =>
    rw [Connects, hphase] at hp
    obtain ⟨rfl, hdials⟩ := hp
    exact ⟨.reopened, Link.exec_moves (.pass trivial) (Link.exec_moves .reopen Machine.exec_nil),
      rfl, hdials⟩
  | openRequired sample hphase | openSession sample hphase =>
    rw [Connects, hphase] at hp
    obtain ⟨rfl, hdials⟩ := hp
    refine ⟨.ready, exec_recordConnected sample, rfl, ?_⟩
    rwa [total_attempts_recordConnected]
  | connectRetried error source hphase henabled =>
    rw [Connects, hphase] at hp
    obtain ⟨rfl, hdials, hattempt⟩ := hp
    obtain ⟨link', hexec, hlink'⟩ := exec_recordConnectFailed participant config error
    refine ⟨link', hexec, hlink', ?_⟩
    rw [total_attempts_recordConnectFailed]
    exact ⟨hdials, hattempt, henabled⟩
  | connectFails error source hphase =>
    rw [Connects, hphase] at hp
    obtain ⟨rfl, hdials, hattempt⟩ := hp
    obtain ⟨link', hexec, hlink'⟩ := exec_recordConnectFailed participant config error
    refine ⟨link', hexec, isOver_of_mayDial hlink', ?_⟩
    rw [total_attempts_recordConnectFailed]
    exact hdials.trans (Nat.succ_le_succ hattempt)
  | dialStopped hphase | dialDeadline hphase =>
    -- the dial stays counted, without a result
    rw [Connects, hphase] at hp
    obtain ⟨rfl, hdials, hattempt⟩ := hp
    exact ⟨.dialing, rfl, rfl, hdials.trans (Nat.succ_le_succ hattempt)⟩
  | marked hphase | notified hphase =>
    rw [Connects, hphase] at hp
    exact ⟨link, Link.exec_of_isNeutral (by simp [Effect.IsNeutral]), hp⟩
  | session session session' a out hphase hsession =>
    rw [Connects, hphase] at hp
    have hneutral : ∀ e ∈ out, e.IsNeutral :=
      fun e he => (Session.step_ofSession hsession e he).isNeutral
    refine ⟨link, Link.exec_of_isNeutral hneutral, ?_⟩
    rw [total_eq_zero fun e he => Link.added_of_isNeutral (hneutral e he) rfl]
    exact hp
  | sessionOver result hphase =>
    rw [Connects, hphase] at hp
    obtain ⟨rfl, hdials, hattempt⟩ := hp
    rw [total_attempts_recordSessionOver]
    cases result with
    | ok _ =>
      exact ⟨.disconnected, exec_recordSessionOver_ok, rfl,
        hdials.trans (Nat.succ_le_succ hattempt)⟩
    | error failure =>
      obtain ⟨link', hexec, hlink'⟩ := exec_recordSessionOver_error participant config w failure
      refine ⟨link', hexec, ?_⟩
      rw [afterSession]
      split
      · exact ⟨isOver_of_mayDial hlink', hdials.trans (Nat.succ_le_succ hattempt)⟩
      · next hretries =>
        rw [Bool.or_eq_true, not_or, Bool.not_eq_true, Bool.not_eq_false'] at hretries
        exact ⟨hlink', hdials, hattempt, hretries.1⟩
  | retry factor failure hphase =>
    rw [Connects, hphase] at hp
    obtain ⟨hlink, hdials, hattempt, henabled⟩ := hp
    refine ⟨link, rfl, ?_⟩
    have hover := isOver_of_mayDial hlink
    have hdials' : dials ≤ maxRedials config + 1 := hdials.trans (Nat.succ_le_succ hattempt)
    rw [retry]
    split
    · exact ⟨hover, hdials'⟩
    · next hmore =>
      have hmax : p.attempt + 1 ≤ maxRedials config := by
        rw [maxRedials, if_pos henabled]
        exact Nat.lt_of_not_le hmore
      rw [backOff]
      -- the delay overflows, or does not end before the run, or is waited for
      split
      · exact ⟨hover, hdials'⟩
      · split
        · exact ⟨hover, hdials'⟩
        · exact ⟨hlink, hdials, hmax⟩

end Participant

end TakBench
