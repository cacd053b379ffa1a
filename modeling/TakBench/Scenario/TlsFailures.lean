import TakBench.Protocol.Reference
import TakBench.Safety
import TakBench.Scenario.Connection

/-!
# The failures of TLS in a session

A session that ends in an error counts as a failure of TLS if the chain of the error has an I/O
error of kind `InvalidData` in it. But `read_events` and `flush_batch` put errors of their own in
the place of what the transport reports, so no session returns such a chain, and a fatal alert
that arrives after the handshake is not counted.

## Main definitions

* `Erases`: a result in which nothing is left of a failure of TLS
* `ParticipantAct.failsIo`: a read or a write fails

## Main results

* `Session.erases_step`: no session returns a failure of TLS
* `Participant.tls_uncounted`: a session in which a read or a write fails is not counted
-/

namespace TakBench

/-- Nothing is left of a failure of TLS. -/
def Erases : Except Failure Unit → Prop
  | .ok _ => True
  | .error failure => isTlsFailure failure = false ∧ .tlsTemplate ∉ failure

variable {P : Platform} {participant : ParticipantConfig} {config : AppConfig} {w : World}
  {out : List Effect}

theorem erases_singleton {cause : Cause} (h : isTlsFailure [cause] = false)
    (hcause : cause ≠ .tlsTemplate) : Erases (.error [cause]) :=
  ⟨h, fun hmem => hcause (List.mem_singleton.mp hmem).symm⟩

/-! ## Senders and readers -/

/-- A sender that has returned has erased what the transport has reported. -/
def Sender.Erased (s : Sender) : Prop := ∀ result, s.phase = .returned result → Erases result

namespace Sender

variable {s s' : Sender} {act : SenderAct}

theorem erased_of_ne (h : ∀ result, s.phase ≠ .returned result) : s.Erased :=
  fun result hphase => absurd hphase (h result)

theorem erased_leave : s.leave.1.Erased := by
  rintro result hphase
  cases hphase
  trivial

theorem erased_fail : s.fail.Erased := by
  rintro result hphase
  cases hphase
  exact erases_singleton rfl (by simp)

theorem erased_endTick : (s.endTick config).1.Erased := by
  rw [endTick]
  split
  · exact erased_leave
  · exact erased_of_ne (by simp)

theorem erased_flushOutcome (next : AfterFlush) (outcome : WriteOutcome) :
    (s.flushOutcome next outcome).1.Erased := by
  cases outcome with
  | pending write => exact erased_of_ne (by simp [flushOutcome])
  | done => exact erased_of_ne (by simp [flushOutcome])
  | failed failure => exact erased_fail

theorem erased_frameOutcome (outcome : WriteOutcome) :
    (s.frameOutcome config outcome).1.Erased := by
  cases outcome with
  | pending write => exact erased_of_ne (by simp [frameOutcome])
  | done => exact erased_endTick
  | failed failure => exact erased_fail

theorem erased_afterFlush (now : Instant) (next : AfterFlush) :
    (s.afterFlush config now next).1.Erased := by
  cases next with
  | batch => exact erased_endTick
  | frame bytes => exact erased_frameOutcome _

theorem erased_flush (now : Instant) (next : AfterFlush) :
    (s.flush config now next).1.Erased := by
  rw [flush]
  split
  · exact erased_afterFlush now next
  · exact erased_flushOutcome next _

theorem erased_dispatch (now : Instant) (utc : OffsetDateTime) (id : Uuid) :
    (s.dispatch P participant config now utc id).1.Erased := by
  rw [dispatch]
  split
  · exact erased_flush _ _
  · rw [append]
    split
    · -- the batch is over the limit, which is no failure of the transport
      rintro result hphase
      cases hphase
      exact erases_singleton rfl (by simp)
    · split
      · exact erased_flush _ _
      · exact erased_endTick

theorem erased_step (h : s.step P participant config w act = some (s', out)) : s'.Erased := by
  cases steps_of_step h with
  | tick utc id hphase hdue hp =>
    obtain ⟨rfl, -⟩ := Prod.mk.inj hp
    exact erased_dispatch _ _ _
  | stopped hphase hstop hp =>
    obtain ⟨rfl, -⟩ := Prod.mk.inj hp
    exact erased_leave
  | deadline hphase hdue hp =>
    obtain ⟨rfl, -⟩ := Prod.mk.inj hp
    exact erased_leave
  | flush act write next outcome bytes hphase hwrite hp =>
    obtain ⟨rfl, -⟩ := Prod.mk.inj hp
    exact erased_flushOutcome next outcome
  | frame act write outcome bytes hphase hwrite hp =>
    obtain ⟨rfl, -⟩ := Prod.mk.inj hp
    exact erased_frameOutcome outcome
  | publish next hphase hp =>
    obtain ⟨rfl, -⟩ := Prod.mk.inj hp
    exact erased_afterFlush _ next

end Sender

/-- A reader that has returned has erased what the transport has reported. -/
def Reader.Erased (reader : Reader) : Prop :=
  ∀ result, reader.phase = .returned result → Erases result

namespace Reader

variable {reader reader' : Reader} {act : ReaderAct}

theorem erased_of_ne (h : ∀ result, reader.phase ≠ .returned result) : reader.Erased :=
  fun result hphase => absurd hphase (h result)

theorem erased_returned {decoder : CotStreamDecoder} {result : Except Failure Unit}
    (h : Erases result) : Erased ⟨decoder, .returned result⟩ := by
  rintro result' hphase
  cases hphase
  exact h

theorem erased_start : (start participant config w).Erased := by
  rw [start]
  split
  · exact erased_of_ne (by simp)
  · split
    · exact erased_returned trivial
    · exact erased_of_ne (by simp)

theorem erased_push (bytes : List UInt8) : (reader.push P bytes).Erased := by
  rw [push]
  split
  · exact erased_of_ne (by simp)
  · exact erased_returned (erases_singleton rfl (by simp))

theorem erased_cut {p : Reader × List Effect} (h : reader.cut = some p) : p.1.Erased := by
  rw [cut] at h
  split at h <;> cases h <;> exact erased_returned trivial

theorem erased_step (h : reader.step P participant config w act = some (reader', out)) :
    reader'.Erased := by
  have hread : ∀ decoder since, Erased ⟨decoder, .reading since⟩ :=
    fun _ _ => erased_of_ne (by simp)
  cases act with
  | started =>
    simp only [step] at h
    split at h <;> cases h
    exact erased_start
  | stopped =>
    simp only [step, Option.ite_none_right_eq_some] at h
    exact erased_cut h.2
  | deadline =>
    simp only [step, Option.ite_none_right_eq_some] at h
    exact erased_cut h.2
  | received bytes =>
    simp only [step] at h
    split at h
    · simp only [Option.ite_none_right_eq_some] at h
      obtain ⟨-, h⟩ := h
      split at h
      · cases h
        exact erased_push bytes
      · split at h <;> cases h
        · exact erased_returned trivial
        · exact erased_of_ne (by simp)
    · cases h
  | peerClosed =>
    simp only [step] at h
    split at h <;> cases h
    exact erased_returned (erases_singleton rfl (by simp))
  | readFailed =>
    -- the error of the transport is replaced
    simp only [step] at h
    split at h <;> cases h
    exact erased_returned (erases_singleton rfl (by simp))
  | timedOut =>
    simp only [step] at h
    split at h
    · simp only [Option.ite_none_right_eq_some] at h
      obtain ⟨-, h⟩ := h
      split at h <;> cases h
      · exact hread _ _
      · exact erased_returned (erases_singleton rfl (by simp))
    · cases h
  | delayOver =>
    simp only [step] at h
    split at h
    · simp only [Option.ite_none_right_eq_some, Option.some.injEq, Prod.mk.injEq] at h
      exact h.2.1 ▸ hread _ _
    · simp only [Option.ite_none_right_eq_some, Option.some.injEq, Prod.mk.injEq] at h
      exact h.2.1 ▸ erased_push _
    · cases h
  | inspected =>
    simp only [step] at h
    split at h
    · cases h
      exact hread _ _
    · split at h
      · cases h
        exact erased_returned (erases_singleton rfl (by simp))
      · split at h <;> cases h <;> exact erased_of_ne (by simp)
    · cases h
  | recorded =>
    simp only [step] at h
    split at h <;> cases h
    exact erased_of_ne (by simp)

end Reader

/-! ## Sessions -/

/-- What a session returns, or is about to return, has nothing left of a failure of TLS. -/
def Session.Erased : Session → Prop
  | .slowConnecting _ | .panicked _ => True
  | .receiving reader => reader.Erased
  | .waiting _ reader | .sending _ reader => ∀ r ∈ reader, r.Erased
  | .joining _ result | .returned result => Erases result

namespace Session

variable {session session' : Session} {act : SessionAct}

theorem erased_afterReader {reader : Reader} (h : reader.Erased) :
    (afterReader reader).Erased := by
  rw [afterReader]
  split
  · next result hphase => exact h result hphase
  · exact h

theorem erased_enter : (enter participant config w).Erased := by
  rw [enter]
  split
  · exact erased_afterReader Reader.erased_start
  · intro reader hreader
    cases hreader
  · intro reader hreader
    obtain rfl := Option.some.inj hreader
    exact Reader.erased_of_ne (by simp [Reader.spawn])

theorem erased_start : (start participant config w).Erased := by
  rw [start]
  split
  · split <;> trivial
  · exact erased_enter

theorem erased_close {result : Except Failure Unit} (h : Erases result) (reader : Option Reader) :
    (close result reader).Erased := by
  cases reader <;> exact h

/-- **No session returns a failure of TLS**, whatever the transport reports. -/
theorem erased_step (hsession : session.Erased)
    (h : session.step P participant config w act = some (session', out)) : session'.Erased := by
  have hok : Erases (.ok ()) := trivial
  cases steps_of_step h with
  | enter endsAt hdue => exact erased_enter
  | delayCut endsAt hover => trivial
  | barrier barrier barrier' reader a hbarrier =>
    cases barrier' with
    | returned result =>
      cases result with
      | ready =>
        -- the barrier is open, and the interval may panic
        rw [afterBarrier]
        rcases openSender_cases config w reader with ⟨interval, -, -, hopen⟩ | hopen
        · rw [hopen]
          exact hsession
        · rw [hopen]
          trivial
      | timedOut => exact erased_close hok reader
      | stopped => exact erased_close hok reader
    | checking => exact hsession
    | unarmed => exact hsession
    | armed seen => exact hsession
  | sender sender sender' reader a out hsender =>
    rw [afterSender]
    split
    · next result hphase => exact erased_close (Sender.erased_step hsender result hphase) reader
    · exact hsession
  | reader session reader reader' a out halive hreader =>
    -- only a session that receives or sends returns what its reader does
    have herased := Reader.erased_step hreader
    have hput : ∀ r ∈ some reader', r.Erased := fun r hr => Option.some.inj hr ▸ herased
    cases session with
    | receiving _ => exact erased_afterReader herased
    | waiting _ _ => exact hput
    | sending _ _ => exact hput
    | joining _ _ => exact hsession
    | panicked _ => trivial
    | slowConnecting _ => exact hsession
    | returned _ => exact hsession
  | readerDone sender reader result hphase => exact hsession reader rfl result hphase
  | readerJoined reader result => exact hsession

end Session

/-! ## Participants -/

/-- A read fails, or a write with an I/O error of kind `InvalidData`. The reader does not look at
the error of a read that fails. -/
def ParticipantAct.failsIo : ParticipantAct → Bool
  | .session (.sender (.write (.failed _ isInvalidData))) => isInvalidData
  | .session (.reader .readFailed) => true
  | _ => false

/-- A step on a connection, up to the end of the session. -/
def ParticipantAct.isOfSession : ParticipantAct → Bool
  | .sampled | .marked | .notified | .session _ => true
  | _ => false

namespace Participant

variable {p p' : Participant} {act : ParticipantAct}

/-- The session of a participant returns no failure of TLS. -/
def Erased (p : Participant) : Prop := ∀ session ∈ p.session?, session.Erased

theorem erased_of_none (h : p.session? = none) : p.Erased := by
  intro session hsession
  rw [h] at hsession
  cases hsession

theorem total_tls_recordConnected (sample : ConnectionSample) :
    total (Effect.added .tlsFailures) (recordConnected participant sample) = 0 := by
  cases sample <;> simp [recordConnected, recordSample, Effect.added]

theorem total_tls_recordSessionOver {result : Except Failure Unit} (h : Erases result) :
    total (Effect.added .tlsFailures)
      (recordSessionOver participant config w p result) = 0 := by
  cases result with
  | ok _ => simp [recordSessionOver, Effect.added]
  | error failure =>
    have hnone : isTlsFailure failure = false := h.1
    simp only [recordSessionOver, hnone, Bool.and_false, Bool.false_eq_true, if_false]
    split <;> simp [Effect.added]

/-- **A failure of TLS is counted only for a dial**, and the session returns none. -/
theorem erased_step (hp : p.Erased)
    (h : p.step P participant config w act = some (p', out)) :
    p'.Erased ∧ ((∀ error source, act ≠ .connectFailed error source) →
      total (Effect.added .tlsFailures) out = 0) := by
  cases steps_of_step h with
  | enter endsAt hphase =>
    exact ⟨erased_of_none (session?_of_isBetween isBetween_enter), fun _ => rfl⟩
  | backoffCut | startOver | ramp | redial | rampCut | leave | dialStopped | dialDeadline =>
    exact ⟨erased_of_none rfl, fun _ => rfl⟩
  | dial => exact ⟨erased_of_none rfl, fun _ => rfl⟩
  | connect | reconnect => exact ⟨erased_of_none rfl, fun _ => rfl⟩
  | openRequired sample =>
    exact ⟨erased_of_none rfl, fun _ => total_tls_recordConnected sample⟩
  | openSession sample =>
    refine ⟨?_, fun _ => total_tls_recordConnected sample⟩
    rintro session hsession
    obtain rfl := Option.some.inj hsession
    exact Session.erased_start
  | connectRetried error source hphase =>
    exact ⟨erased_of_none rfl, fun hother => absurd rfl (hother error source)⟩
  | connectFails error source hphase =>
    exact ⟨erased_of_none rfl, fun hother => absurd rfl (hother error source)⟩
  | marked hphase => exact ⟨erased_of_none rfl, fun _ => rfl⟩
  | notified hphase =>
    refine ⟨?_, fun _ => rfl⟩
    rintro session hsession
    obtain rfl := Option.some.inj hsession
    exact Session.erased_start
  | session session session' a out hphase hsession =>
    have herased : session.Erased := hp session (by simp [session?, hphase])
    refine ⟨?_, fun _ => total_eq_zero fun e he =>
      Link.added_of_isNeutral (Session.step_ofSession hsession e he).isNeutral rfl⟩
    rintro session'' hsession''
    obtain rfl := Option.some.inj hsession''
    exact Session.erased_step herased hsession
  | sessionOver result hphase =>
    have herases : Erases result := hp (.returned result) (by simp [session?, hphase])
    exact ⟨erased_of_none (session?_of_isBetween (isBetween_afterSession result)),
      fun _ => total_tls_recordSessionOver herases⟩
  | retry factor failure hphase =>
    exact ⟨erased_of_none (session?_of_isBetween (isBetween_retry failure factor)), fun _ => rfl⟩

variable (config) in
/-- A session of a participant with TLS in which a read or a write fails with an I/O error of kind
`InvalidData` is counted once. -/
def CountsTlsFailure (acts : List (World × ParticipantAct)) (s t : Participant × List Effect) :
    Prop :=
  config.tls.enabled = true → (∃ i ∈ acts, i.2.failsIo = true) →
    total (Effect.added .tlsFailures) t.2 = total (Effect.added .tlsFailures) s.2 + 1

/-- **No failure of TLS in a session is counted**: from a connection to the end of its session
nothing is added to the counter, and so no session with such a failure is counted once. -/
theorem tls_uncounted {delay : Duration} {before acts : List (World × ParticipantAct)}
    {s t : Participant × List Effect} {w' : World} {handshakeTime : Duration}
    (hbefore : (component P participant config).logged.exec (spawn delay, []) before = some s)
    (h : (component P participant config).logged.exec s
      ((w, .connected handshakeTime) :: acts ++ [(w', .sessionOver)]) = some t)
    (hacts : ∀ i ∈ acts, i.2.isOfSession = true) :
    total (Effect.added .tlsFailures) t.2 = total (Effect.added .tlsFailures) s.2 ∧
      (config.tls.enabled = true → (∃ i ∈ acts, i.2.failsIo = true) →
        ¬ CountsTlsFailure config acts s t) := by
  have hspawn : (spawn delay).Erased := erased_of_none rfl
  have hs : s.1.Erased := by
    refine Machine.exec_invariant (I := fun s => s.1.Erased) (fun s i t hs hstep => ?_) hspawn
      hbefore
    obtain ⟨out, hstep, -⟩ := Component.logged_step.mp hstep
    exact (erased_step hs hstep).1
  -- no step from the connection to the end of its session is a failed dial
  have hdials : ∀ i ∈ (w, .connected handshakeTime) :: acts ++ [(w', .sessionOver)],
      ∀ error source, i.2 ≠ .connectFailed error source := by
    intro i hi error source heq
    simp only [List.cons_append, List.mem_cons, List.mem_append, List.not_mem_nil, or_false] at hi
    rcases hi with rfl | hi | rfl
    · cases heq
    · have hof := hacts i hi
      rw [heq] at hof
      cases hof
    · cases heq
  -- by induction on the session, with what the participant returns as the invariant
  have hsame : total (Effect.added .tlsFailures) t.2 = total (Effect.added .tlsFailures) s.2 := by
    have hkept := Machine.exec_invariant_along
      (I := fun u => u.1.Erased ∧
        total (Effect.added .tlsFailures) u.2 = total (Effect.added .tlsFailures) s.2)
      (C := fun _ i => ∀ error source, i.2 ≠ .connectFailed error source)
      (fun u i v hu hi hstep => ?_) (Machine.along_of_forall fun _ => hdials) ⟨hs, rfl⟩ h
    · exact hkept.2
    · obtain ⟨out, hstep, hlog⟩ := Component.logged_step.mp hstep
      obtain ⟨herased, hnone⟩ := erased_step hu.1 hstep
      refine ⟨herased, ?_⟩
      rw [hlog, total_append, hnone hi, Nat.add_zero, hu.2]
  refine ⟨hsame, fun htls hfails hcounted => ?_⟩
  have honce := hcounted htls hfails
  omega

/-! ## Alerts after the handshake -/

namespace Alerted

def peer (role : ParticipantRole) : ParticipantConfig := { id := "peer", role }

/-- A participant with TLS and a malformed event in each second. -/
def secured (role : ParticipantRole) : AppConfig where
  authorization := { acknowledged := true }
  run := { duration := Duration.fromSecs 2, gpsInterval := Duration.fromSecs 1 }
  participants := [peer role]
  tls := { enabled := true }
  scenario := { invalid := { enabled := true, kind := some .malformedXml, maxEvents := some 10 } }

/-- The world at a second. -/
def world (secs : ℕ) : World := { World.initial false with now := Duration.fromSecs secs }

def firstDial : List (World × ParticipantAct) :=
  [(world 0, .start), (world 0, .delayOver), (world 0, .enterLoop)]

/-- A connection, and the steps up to the end of its session. -/
def whole (acts : List (World × ParticipantAct)) : List (World × ParticipantAct) :=
  (world 0, .connected 0) :: acts ++ [(world 1, .sessionOver)]

/-- The peer rejects the client certificate before the first write. -/
def writing : List (World × ParticipantAct) :=
  [(world 0, .sampled), (world 0, .session (.barrier .check)),
    (world 1, .session (.sender (.tick 0 7))),
    (world 1, .session (.sender (.write (.failed "writing CoT event" true))))]

/-- The peer rejects the client certificate before the first read. -/
def reading : List (World × ParticipantAct) :=
  [(world 0, .sampled), (world 1, .session (.reader .readFailed))]

/-- How often a run has counted a failure of a connection, and one of TLS. -/
def counted (role : ParticipantRole) (acts : List (World × ParticipantAct)) : Option (ℕ × ℕ) :=
  ((component Reference.platform (peer role) (secured role)).logged.exec (spawn 0, []) acts).map
    fun t => (total (Effect.added .connectionFailures) t.2,
      total (Effect.added .tlsFailures) t.2)

theorem exists_whole {role : ParticipantRole} {acts : List (World × ParticipantAct)} {n k : ℕ}
    (h : counted role (firstDial ++ whole acts) = some (n, k)) :
    ∃ s t, (component Reference.platform (peer role) (secured role)).logged.exec (spawn 0, [])
        firstDial = some s ∧
      (component Reference.platform (peer role) (secured role)).logged.exec s (whole acts) =
        some t ∧
      total (Effect.added .connectionFailures) t.2 = n ∧
      total (Effect.added .tlsFailures) t.2 = k := by
  obtain ⟨t, hexec, hcounts⟩ := Option.map_eq_some_iff.mp h
  obtain ⟨s, hdialing, hwhole⟩ := Machine.exists_of_exec_append hexec
  obtain ⟨hfailures, htls⟩ := Prod.mk.inj hcounts
  exact ⟨s, t, hdialing, hwhole, hfailures, htls⟩

end Alerted

open Alerted in
/-- A write that fails is not counted as a failure of TLS. -/
theorem tls_uncounted_writing :
    ∃ s t, (component Reference.platform (peer .sendOnly) (secured .sendOnly)).logged.exec s
        (whole writing) = some t ∧ (∃ i ∈ writing, i.2.failsIo = true) ∧
      total (Effect.added .tlsFailures) t.2 = total (Effect.added .tlsFailures) s.2 := by
  obtain ⟨s, t, hdialing, hwhole, -, -⟩ :=
    exists_whole (show counted .sendOnly (firstDial ++ whole writing) = some (1, 0) by
      decide +kernel)
  exact ⟨s, t, hwhole, by simp [writing, ParticipantAct.failsIo],
    (tls_uncounted hdialing hwhole (by simp [writing, ParticipantAct.isOfSession])).1⟩

open Alerted in
/-- The session of a receiver with TLS ends because a read has failed: the failure of the connection
is counted, and not as one of TLS. -/
theorem tls_uncounted_read :
    validateWithOptions (secured .receiveOnly) {} = .ok () ∧
      ∃ s t, (component Reference.platform (peer .receiveOnly) (secured .receiveOnly)).logged.exec
          (spawn 0, []) firstDial = some s ∧
        (component Reference.platform (peer .receiveOnly) (secured .receiveOnly)).logged.exec s
          (whole reading) = some t ∧
        total (Effect.added .connectionFailures) t.2 = 1 ∧
        total (Effect.added .tlsFailures) t.2 = 0 ∧
        ¬ CountsTlsFailure (secured .receiveOnly) reading s t := by
  obtain ⟨s, t, hdialing, hwhole, hfailures, htls⟩ :=
    exists_whole (show counted .receiveOnly (firstDial ++ whole reading) = some (1, 0) by
      decide +kernel)
  refine ⟨by decide, s, t, hdialing, hwhole, hfailures, htls, fun hcounted => ?_⟩
  have honce := hcounted rfl ⟨_, List.mem_cons_of_mem _ List.mem_cons_self, rfl⟩
  omega

end Participant

end TakBench
