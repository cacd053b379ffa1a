import TakBench.Scenario.Chronicle
import TakBench.Scenario.Routing

/-!
# The verdict on expected receivers

The verdict on an expected receiver looks at the time at which an event was made and at the time
at which the receiver recorded it last. What the server does is seen only through the reader of
the receiver, which stops at the deadline of the run and may pause before it records what it has
read.

## Main results

* `Run.received_iff`: the verdict passes exactly when the sender has published an event, and the
  receiver has recorded each one, the last time within the timeout since it was made
* `Run.received_cut`: an event that the receiver has read in time, and not recorded
-/

namespace TakBench

variable {P : Platform} {config : AppConfig}

namespace Run

variable {r r' r₀ : Run} {acts : List RunAct}

/-- **The verdict on an expected receiver** passes exactly when the sender has published an event,
and the receiver has recorded each one, the last time within the timeout since it was made. -/
theorem received_iff {started : ℤ} {shuffle : ℕ → List Duration → List Duration}
    {options : SafetyOptions} {stop : Bool}
    {outcome : ScenarioOutcome} {assertion : RoutingAssertion} {receiver : String}
    (hstart : start config started shuffle options stop = .ok r₀)
    (h : (machine P config).exec r₀ acts = some r)
    (hfresh : (machine P config).Along Fresh r₀ acts)
    (hend : r.step P config .evaluate = some r') (hmain : r'.main = .returned outcome)
    (hassertion : assertion ∈ config.scenario.routing)
    (hreceiver : receiver ∈ assertion.receivers) :
    ∃ result ∈ outcome.assertions, result.sender = assertion.sender ∧
      result.receiver = receiver ∧ result.expectation = .received ∧
      (result.passed = true ↔
        (∃ id, Published (chronicle P config r₀ acts) assertion.sender id) ∧
        ∀ id, Published (chronicle P config r₀ acts) assertion.sender id →
          ∃ made seen, Made (chronicle P config r₀ acts) assertion.sender id made ∧
            lastRecorded (chronicle P config r₀ acts) receiver id = some seen ∧
            seen ≤ made + assertion.timeout.getD (Duration.fromSecs 30)) := by
  have hkept := kept_chronicle hstart h hfresh
  generalize chronicle P config r₀ acts = events at hkept ⊢
  obtain ⟨-, delays, rfl⟩ := exists_of_mem_start hstart
  have hjoined : r.JoinedDone := Machine.exec_invariant (m := machine P config)
    (fun _ _ _ => joinedDone_step) (joinedDone_spawn delays stop) h
  obtain ⟨-, -, -, failures, hmain'⟩ := evaluate_cases hjoined hend
  obtain rfl := MainPhase.returned.inj (hmain.symm.trans hmain')
  refine ⟨r.world.ledger.expect assertion receiver, ?_, rfl, rfl, rfl, ?_⟩
  · exact List.mem_flatMap.mpr ⟨assertion, hassertion,
      List.mem_append_left _ (List.mem_map.mpr ⟨receiver, hreceiver, rfl⟩)⟩
  -- the ids that the verdict looks at are those published
  have hpublished : ∀ id, id ∈ r.world.ledger.correlations assertion.sender ↔
      Published events assertion.sender id := by
    intro id
    rw [CorrelationLedger.mem_correlations_iff, Published]
    simp only [hkept.sent]
    constructor
    · rintro ⟨sentAt, e, he, heffect⟩
      exact ⟨e, he, sentAt, heffect⟩
    · rintro ⟨e, he, sentAt, heffect⟩
      exact ⟨sentAt, e, he, heffect⟩
  rw [CorrelationLedger.passed_expect_iff]
  simp only [hpublished]
  refine and_congr_right fun _ => forall_congr' fun id => imp_congr_right fun hid => ?_
  obtain ⟨e, he, sentAt, heffect⟩ := hid
  -- an event is published with the time at which it was made
  have hsent := (hkept.sent id assertion.sender sentAt).mpr ⟨e, he, heffect⟩
  have hmade := hkept.published e he id _ sentAt heffect
  rw [CorrelationLedger.isSeenWithin_iff hsent]
  simp only [hkept.seen]
  constructor
  · rintro ⟨seen, hseen, hle⟩
    exact ⟨sentAt, seen, hmade, hseen, hle⟩
  · rintro ⟨made, seen, hmade', hseen, hle⟩
    obtain ⟨-, rfl⟩ := hkept.unique id _ _ _ _ hmade hmade'
    exact ⟨seen, hseen, hle⟩

/-! ## Two runs with an expected receiver -/

namespace Delivered

open Leak (alice idle)

/-- A receiver that may wait after each read. -/
def bob (delay : Option Duration) : ParticipantConfig :=
  { id := "bob", role := .receiveOnly, readDelay := delay }

def expecting (delay : Option Duration) : AppConfig where
  authorization := { acknowledged := true }
  run := { clients := 2, duration := Duration.fromSecs 11, gpsInterval := Duration.fromSecs 10 }
  participants := [alice, bob delay]
  scenario := { routing := [{ sender := "alice", receivers := ["bob"] }] }

/-- An event is made, written with its `n` bytes, and published. -/
def sending (n : ℕ) : List RunAct :=
  [.elapse 10000000000, .task 0 (.session (.sender (.tick 0 7))),
    .task 0 (.session (.sender (.write (.wrote n)))),
    .task 0 (.session (.sender (.write .flushed))), .task 0 (.session (.sender .published))]

/-- The deadline of the run passes, and both participants stop. -/
def expiring : List RunAct :=
  [.elapse 1000000000, .task 0 (.session (.sender .deadline)), .task 0 .sessionOver,
    .task 1 (.session (.reader .deadline)), .task 1 .sessionOver, .join 0, .join 1]

/-- The bytes of the event. -/
def eventBytes (P : Platform) : List UInt8 :=
  Utf8.asBytes (positionXml P alice (expecting none) 0 7)

/-- A sender with a batch. -/
def sender (nextTick : Instant) (eventCount : UInt32) (batch : OutgoingBatch)
    (phase : SenderPhase) : Sender :=
  ⟨10000000000, nextTick, batch, eventCount, phase⟩

/-- The batch with the event. -/
def batch (bytes : List UInt8) : OutgoingBatch :=
  ⟨bytes, [⟨7, 10000000000, bytes.length⟩], 1⟩

/-- The run while both are connected. -/
def running (delay : Option Duration) (w : World) (s : Sender) (sent : List Effect)
    (reader : Reader) (received : List Effect) : Run where
  world := w
  stop := false
  tasks := [⟨alice, ⟨.connected (.sending s none), 0, 0⟩, sent⟩,
    ⟨bob delay, ⟨.connected (.receiving reader), 0, 0⟩, received⟩]
  main := .joining [] []

/-- What is recorded when the receiver connects. -/
def connection (delay : Option Duration) : List Effect :=
  .add .connectionAttempts 1 :: Participant.countConnected ++
    Participant.recordConnected (bob delay) (.handshake 0)

/-- The world once both are connected. -/
def connected (delay : Option Duration) : World :=
  (World.initial false).applyAll (Leak.connection alice ++ connection delay)

/-- The world when the event is made. -/
def tickWorld (delay : Option Duration) : World := { connected delay with now := 10000000000 }

/-- The world once the event is published. -/
def sentWorld (delay : Option Duration) : World :=
  ((tickWorld delay).apply (.add .sentMessages 1)).apply (.publish 7 "alice" 10000000000)

variable {delay : Option Duration} {bytes : List UInt8} {w : World} {s s' : Sender}
  {a : SenderAct} {sent out received : List Effect} {reader reader' : Reader} {b : ReaderAct}

/-- The receiver does not wait, or for two seconds. -/
def IsChosen (delay : Option Duration) : Prop := delay = none ∨ delay = some 2000000000

theorem start_expecting (h : IsChosen delay) : start (expecting delay) 0 (fun _ => id) {} false =
    .ok (spawn (expecting delay) [0, 0] false) := by
  rcases h with rfl | rfl <;> rfl

theorem exec_connecting (delay : Option Duration) (h : IsChosen delay) :
    (machine P (expecting delay)).exec (spawn (expecting delay) [0, 0] false) Leak.connecting =
      some (running delay (connected delay) (sender 10000000000 0 {} .selecting)
        (Leak.connection alice) (idle (.reading 0)) (connection delay)) := by
  rcases h with rfl | rfl <;> rfl

theorem step_sender (h : s.step P alice (expecting delay) w a = some (s', out))
    (halive : Session.afterSender none s' = .sending s' none) :
    (machine P (expecting delay)).step (running delay w s sent reader received)
        (.task 0 (.session (.sender a))) =
      some (running delay (w.applyAll out) s' (sent ++ out) reader received) :=
  step_session (r := running delay w s sent reader received) (i := 0) rfl
    (Session.step_sending h halive)

theorem step_reader (h : reader.step P (bob delay) (expecting delay) w b = some (reader', out))
    (halive : Session.afterReader reader' = .receiving reader') :
    (machine P (expecting delay)).step (running delay w s sent reader received)
        (.task 1 (.session (.reader b))) =
      some (running delay (w.applyAll out) s sent reader' (received ++ out)) :=
  step_session (r := running delay w s sent reader received) (i := 1) rfl
    (Session.step_receiving h halive)

theorem step_tick {utc : OffsetDateTime} {id : Uuid} (hphase : s.phase = .selecting)
    (hdue : s.nextTick ≤ w.now) : s.step P alice config w (.tick utc id) =
      some (s.tick P alice config w.now utc id) := by
  simp only [Sender.step, hphase]
  exact if_pos hdue

/-- The effects of sending the event. -/
def sentEffects (bytes : List UInt8) : List Effect :=
  [.generate (some 7)] ++ [.write bytes, .deliver 7] ++ [.write [], .add .sentMessages 1] ++
    [.publish 7 "alice" 10000000000]

/-- Time passes up to the first tick. -/
theorem step_elapse : (machine P (expecting delay)).step (running delay (connected delay)
      (sender 10000000000 0 {} .selecting) sent reader received) (.elapse 10000000000) =
    some (running delay (tickWorld delay) (sender 10000000000 0 {} .selecting) sent reader
      received) := by
  have hnow : (connected delay).now = 0 := World.applyAll_now _ _
  simp only [machine, Run.step, running, tickWorld, hnow, Nat.zero_add]

theorem exec_sending (delay : Option Duration) (hbytes : eventBytes P = bytes) (hne : bytes ≠ [])
    (hlimit : bytes.length ≤ 8192) :
    (machine P (expecting delay)).exec (running delay (connected delay)
        (sender 10000000000 0 {} .selecting) (Leak.connection alice) (idle (.reading 0))
        (connection delay)) (sending bytes.length) =
      some (running delay (sentWorld delay) (sender 20000000000 1 {} .selecting)
        (Leak.connection alice ++ sentEffects bytes) (idle (.reading 0)) (connection delay)) := by
  have hbytes' : Utf8.asBytes (positionXml P alice (expecting delay) 0 7) = bytes := hbytes
  have hfull : (sender 10000000000 0 {} .selecting).tick P alice (expecting delay) 10000000000 0 7 =
      _ := Sender.tick_of_full rfl rfl hbytes' (by simpa [sender] using hlimit.trans (by decide))
        le_rfl hne
  have htick : (sender 10000000000 0 {} .selecting).step P alice (expecting delay)
      (tickWorld delay) (.tick 0 7) =
      some (sender 20000000000 1 (batch bytes) (.flushing ⟨[bytes], 0, 10000000000⟩ .batch),
        [.generate (some 7)]) := by
    have hdue : (sender 10000000000 0 {} .selecting).nextTick ≤ (tickWorld delay).now :=
      Nat.le_refl _
    refine (step_tick rfl hdue).trans ((congrArg some hfull).trans ?_)
    simp [sender, batch, Sender.withPosition, Sender.push, nextTimeout]
  have hwrite : (sender 20000000000 1 (batch bytes)
      (.flushing ⟨[bytes], 0, 10000000000⟩ .batch)).step P alice (expecting delay)
        (tickWorld delay) (.write (.wrote bytes.length)) =
      some (sender 20000000000 1 (batch bytes)
        (.flushing ⟨[[]], bytes.length, 10000000000⟩ .batch), [.write bytes, .deliver 7]) := by
    have hpos : 0 < bytes.length := List.length_pos_of_ne_nil hne
    simp [Sender.step, Write.step, sender, batch, Sender.flushOutcome, Sender.delivered, hpos]
  have hflush : (sender 20000000000 1 (batch bytes)
      (.flushing ⟨[[]], bytes.length, 10000000000⟩ .batch)).step P alice (expecting delay)
        (tickWorld delay) (.write .flushed) =
      some (sender 20000000000 1 (batch bytes) (.publishing .batch),
        [.write [], .add .sentMessages 1]) := by
    simp [Sender.step, Write.step, sender, batch, Sender.flushOutcome, Sender.delivered]
  have hpublish : (sender 20000000000 1 (batch bytes) (.publishing .batch)).step P alice
      (expecting delay)
        ((tickWorld delay).apply (.add .sentMessages 1)) .published =
      some (sender 20000000000 1 {} .selecting, [.publish 7 "alice" 10000000000]) := rfl
  refine Machine.exec_step step_elapse (Machine.exec_step (step_sender htick rfl)
    (Machine.exec_step (step_sender hwrite rfl) (Machine.exec_step (step_sender hflush rfl)
      (Machine.exec_step (step_sender hpublish rfl) ?_))))
  simp only [sentEffects, sentWorld, World.applyAll_cons, World.applyAll_nil, List.append_assoc]
  rfl

/-- The receiver reads the event, and waits. -/
theorem exec_waiting (hne : bytes ≠ []) (hlimit : bytes.length ≤ 8192) :
    (machine P (expecting (some 2000000000))).exec
        (running (some 2000000000) (sentWorld (some 2000000000)) s sent (idle (.reading 0))
          received)
        [.task 1 (.session (.reader (.received bytes)))] =
      some (running (some 2000000000) (sentWorld (some 2000000000)) s sent
        (idle (.delaying 12000000000 bytes)) received) := by
  have hreceived : (idle (.reading 0)).step P (bob (some 2000000000))
      (expecting (some 2000000000)) (sentWorld (some 2000000000)) (.received bytes) =
      some (idle (.delaying 12000000000 bytes), []) := by
    refine (if_pos ⟨List.length_pos_of_ne_nil hne, hlimit⟩).trans ?_
    rfl
  refine Machine.exec_step (step_reader hreceived rfl) ?_
  simp

/-- The receiver reads the event, and records it. -/
theorem exec_reading (s : Sender) (sent received : List Effect) {raw : String} (hne : bytes ≠ [])
    (hlimit : bytes.length ≤ 8192)
    (hpush : (idle (.reading 0)).push P bytes = idle (.recording [raw]))
    (hinspect : ∃ event, inspectEvent P raw = .ok event ∧ event.correlationId = some 7) :
    (machine P (expecting none)).exec
        (running none (sentWorld none) s sent (idle (.reading 0)) received)
        (Leak.reading bytes) =
      some (running none
        (((sentWorld none).apply (.add .receivedMessages 1)).applyAll
          [.observe "bob" 7, .record .delivery 0]) s sent (idle (.reading 10000000000))
        (received ++ [.add .receivedMessages 1, .observe "bob" 7, .record .delivery 0])) := by
  obtain ⟨event, hevent, hid⟩ := hinspect
  have hreceived : (idle (.reading 0)).step P (bob none) (expecting none) (sentWorld none)
      (.received bytes) = some (idle (.recording [raw]), []) := by
    rw [← hpush]
    exact if_pos ⟨List.length_pos_of_ne_nil hne, hlimit⟩
  have hinspected : (idle (.recording [raw])).step P (bob none) (expecting none) (sentWorld none)
      .inspected = some (idle (.locking 7 []), [.add .receivedMessages 1]) := by
    simp only [Reader.step, idle, hevent, hid]
  have hrecorded : (idle (.locking 7 [])).step P (bob none) (expecting none)
      ((sentWorld none).apply (.add .receivedMessages 1)) .recorded =
      some (idle (.recording []), [.observe "bob" 7, .record .delivery 0]) := rfl
  have hempty : (idle (.recording [])).step P (bob none) (expecting none)
      (((sentWorld none).apply (.add .receivedMessages 1)).applyAll
        [.observe "bob" 7, .record .delivery 0]) .inspected =
      some (idle (.reading 10000000000), []) := rfl
  refine Machine.exec_step (step_reader hreceived rfl) (Machine.exec_step
    (step_reader hinspected rfl) (Machine.exec_step (step_reader hrecorded rfl)
      (Machine.exec_step (step_reader hempty rfl) ?_)))
  simp

/-- Both participants stop at the deadline, and the assertions are evaluated. -/
theorem exists_expired (w : World) (sent received : List Effect) (h : IsChosen delay)
    {phase : ReaderPhase} (hnow : w.now = 10000000000)
    (hphase : (∃ since, phase = .reading since) ∨ ∃ endsAt bytes, phase = .delaying endsAt bytes) :
    ∃ r r', (machine P (expecting delay)).exec
        (running delay w (sender 20000000000 1 {} .selecting) sent (idle phase) received)
        expiring = some r ∧
      r.world.ledger = w.ledger ∧ r.tasks[1]?.map (·.participant.id) = some "bob" ∧
      r.step P (expecting delay) .evaluate = some r' ∧
      r'.main = .returned ⟨w.ledger.evaluateRouting (expecting delay).scenario.routing, []⟩ := by
  have helapse : (machine P (expecting delay)).step
      (running delay w (sender 20000000000 1 {} .selecting) sent (idle phase) received)
      (.elapse 1000000000) =
      some (running delay { w with now := 11000000000 } (sender 20000000000 1 {} .selecting) sent
        (idle phase) received) := by
    simp only [machine, Run.step, running, hnow, Nat.reduceAdd]
  -- both stop and are joined, whether the receiver reads or waits
  have hstopped : ∃ r r', (machine P (expecting delay)).exec
        (running delay { w with now := 11000000000 } (sender 20000000000 1 {} .selecting) sent
          (idle phase) received) expiring.tail = some r ∧
      r.world.ledger = w.ledger ∧ r.tasks[1]?.map (·.participant.id) = some "bob" ∧
      r.step P (expecting delay) .evaluate = some r' ∧
      r'.main = .returned ⟨w.ledger.evaluateRouting (expecting delay).scenario.routing, []⟩ := by
    obtain ⟨now, stop, ready, notifications, ledger, counters, recorded, lifecycle⟩ := w
    rcases h with rfl | rfl
    · rcases hphase with ⟨since, rfl⟩ | ⟨endsAt, bytes, rfl⟩
      · exact ⟨_, _, rfl, rfl, rfl, rfl, rfl⟩
      · exact ⟨_, _, rfl, rfl, rfl, rfl, rfl⟩
    · rcases hphase with ⟨since, rfl⟩ | ⟨endsAt, bytes, rfl⟩
      · exact ⟨_, _, rfl, rfl, rfl, rfl, rfl⟩
      · exact ⟨_, _, rfl, rfl, rfl, rfl, rfl⟩
  obtain ⟨r, r', hexec, hrest⟩ := hstopped
  exact ⟨r, r', Machine.exec_step helapse hexec, hrest⟩

theorem fresh_sending (n : ℕ) : (machine P (expecting delay)).Along Fresh (running delay
    (connected delay) (sender 10000000000 0 {} .selecting) (Leak.connection alice)
    (idle (.reading 0)) (connection delay)) (sending n) := by
  refine (Machine.along_cons step_elapse).mpr ⟨trivial, ?_, fun _ _ => ?_⟩
  · -- the only tick draws an id that nobody has seen
    refine ⟨?_, fun receiver => rfl⟩
    simp [running, Leak.connection, connection, Participant.countConnected,
      Participant.recordConnected, Participant.recordSample]
  · exact Machine.along_of_forall (by simp [Fresh])

theorem length_eventBytes : (eventBytes Reference.platform).length ≤ 8192 :=
  (Reference.length_toXml_le _).trans (show 4 * ((escape "tak-bench-alice").toList.length +
    (escape "alice").toList.length + 600) ≤ 8192 by decide)

/-- What the reader makes of the event. -/
theorem reference_reading :
    (idle (.reading 0)).push Reference.platform (eventBytes Reference.platform) =
        idle (.recording [positionXml Reference.platform alice (expecting none) 0 7]) ∧
      ∃ event, inspectEvent Reference.platform
        (positionXml Reference.platform alice (expecting none) 0 7) = .ok event ∧
          event.correlationId = some 7 :=
  ⟨Leak.idle_push Reference.platform_standard Reference.platform_plain
    (length_eventBytes.trans (by decide)) 0,
    _, inspectEvent_toXml Reference.platform_standard Reference.platform_plain _, rfl⟩

/-- The receiver reads the event at once, and records it. -/
theorem exists_recorded (hbytes : eventBytes Reference.platform = bytes) :
    ∃ u r r', (machine Reference.platform (expecting none)).exec
        (spawn (expecting none) [0, 0] false)
        (Leak.connecting ++ (sending bytes.length ++ Leak.reading bytes)) = some u ∧
      u.world.now = 10000000000 ∧
      u.tasks[1]?.map (·.state.session?) = some (some (.receiving (idle (.reading 10000000000)))) ∧
      (machine Reference.platform (expecting none)).exec u expiring = some r ∧
      (machine Reference.platform (expecting none)).Along Fresh
        (spawn (expecting none) [0, 0] false)
        (Leak.connecting ++ (sending bytes.length ++ Leak.reading bytes) ++ expiring) ∧
      (∀ id, (∃ sentAt, r.world.ledger.sent.lookup id = some ("alice", sentAt)) ↔ id = 7) ∧
      r.tasks[1]?.map (·.participant.id) = some "bob" ∧
      r.step Reference.platform (expecting none) .evaluate = some r' ∧
      r'.main = .returned { assertions := [⟨"alice", "bob", .received, true, 1⟩] } := by
  have hne : bytes ≠ [] := hbytes ▸ asBytes_toXml_ne_nil _
  have hlimit : bytes.length ≤ 8192 := hbytes ▸ length_eventBytes
  obtain ⟨hpush, hinspect⟩ := reference_reading
  rw [hbytes] at hpush
  -- both connect, the event is sent, read and recorded, and the run ends
  have hconnecting := exec_connecting (P := Reference.platform) none (.inl rfl)
  have hsending := exec_sending (P := Reference.platform) none hbytes hne hlimit
  have hreading := exec_reading (P := Reference.platform) (sender 20000000000 1 {} .selecting)
    (Leak.connection alice ++ sentEffects bytes) (connection none) hne hlimit hpush hinspect
  obtain ⟨r, r', hexpiring, hledger, hname, hend, hmain⟩ := exists_expired
    (P := Reference.platform)
    (((sentWorld none).apply (.add .receivedMessages 1)).applyAll
      [.observe "bob" 7, .record .delivery 0])
    (Leak.connection alice ++ sentEffects bytes)
    (connection none ++ [.add .receivedMessages 1, .observe "bob" 7, .record .delivery 0])
    (.inl rfl) rfl (.inl ⟨10000000000, rfl⟩)
  have hread := Machine.exec_append hconnecting (Machine.exec_append hsending hreading)
  refine ⟨_, r, r', hread, rfl, rfl, hexpiring, ?_, fun id => ?_, hname, hend, ?_⟩
  · refine (Machine.along_append hread).mpr ⟨(Machine.along_append hconnecting).mpr
      ⟨Machine.along_of_forall ?_, (Machine.along_append hsending).mpr
        ⟨fresh_sending _, Machine.along_of_forall ?_⟩⟩, Machine.along_of_forall ?_⟩
    · simp [Leak.connecting, Fresh]
    · simp [Leak.reading, Fresh]
    · simp [expiring, Fresh]
  · -- the only event is in the ledger
    have hsent : r.world.ledger.sent =
        AList.insert (7 : Uuid) ("alice", 10000000000) (World.initial false).ledger.sent := by
      rw [hledger]
      rfl
    rw [hsent]
    by_cases hid : id = 7
    · subst hid
      simp
    · rw [AList.lookup_insert_ne hid]
      refine iff_of_false ?_ hid
      rintro ⟨sentAt, hnone⟩
      cases hnone
  · rw [hmain]
    rfl

end Delivered

/-- A run of an accepted configuration in which an event is written before the deadline and read
at once by a receiver that is connected, and the verdict is that it was not received. -/
theorem received_cut :
    start (Delivered.expecting (some 2000000000)) 0 (fun _ => id) {} false =
        .ok (spawn (Delivered.expecting (some 2000000000)) [0, 0] false) ∧
      ∃ u₀ u₁ u₂ r r',
        (machine Reference.platform (Delivered.expecting (some 2000000000))).exec
          (spawn (Delivered.expecting (some 2000000000)) [0, 0] false) Leak.connecting = some u₀ ∧
        (∀ task ∈ u₀.tasks, task.state.isConnected = true ∧ ∀ bytes, .write bytes ∉ task.log) ∧
        (machine Reference.platform (Delivered.expecting (some 2000000000))).exec u₀
          (Delivered.sending (Delivered.eventBytes Reference.platform).length) = some u₁ ∧
        u₁.world.ledger.sent.lookup 7 = some ("alice", u₁.world.now) ∧
        (machine Reference.platform (Delivered.expecting (some 2000000000))).exec u₁
          [.task 1 (.session (.reader (.received (Delivered.eventBytes Reference.platform))))] =
            some u₂ ∧
        (machine Reference.platform (Delivered.expecting (some 2000000000))).exec u₂
          Delivered.expiring = some r ∧
        r.step Reference.platform (Delivered.expecting (some 2000000000)) .evaluate = some r' ∧
        r'.main = .returned
          { assertions := [⟨"alice", "bob", .received, false, 0⟩], participantFailures := [] } := by
  have hne : Delivered.eventBytes Reference.platform ≠ [] := asBytes_toXml_ne_nil _
  -- the deadline comes while the receiver waits, with the event unrecorded
  obtain ⟨r, r', hexec, -, -, hend, hmain⟩ := Delivered.exists_expired
    (P := Reference.platform) (Delivered.sentWorld (some 2000000000))
    (Leak.connection Leak.alice ++
      Delivered.sentEffects (Delivered.eventBytes Reference.platform))
    (Delivered.connection (some 2000000000)) (.inr rfl) rfl
    (.inr ⟨12000000000, Delivered.eventBytes Reference.platform, rfl⟩)
  refine ⟨Delivered.start_expecting (.inr rfl), _, _, _, r, r',
    Delivered.exec_connecting _ (.inr rfl), ?_,
    Delivered.exec_sending _ rfl hne Delivered.length_eventBytes, rfl,
    Delivered.exec_waiting hne Delivered.length_eventBytes, hexec, hend, ?_⟩
  · simp [Delivered.running, Participant.isConnected, Leak.connection, Delivered.connection,
      Participant.countConnected, Participant.recordConnected, Participant.recordSample]
  · rw [hmain]
    rfl

end Run

end TakBench
