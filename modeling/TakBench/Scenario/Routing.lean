import TakBench.Protocol.RoundTrip
import TakBench.Scenario.Joining
import TakBench.Scenario.Tracking
import TakBench.Scenario.Verdict

/-!
# The verdict on forbidden receivers

The verdict on a forbidden receiver looks only at the events that the ledger knows to be sent. A
delivered event that its sender gives up is not among them, so the verdict is right exactly when
the receiver has seen none of the events given up.

## Main results

* `Run.not_received_iff`: the verdict is right exactly when no event given up was seen
-/

namespace TakBench

variable {P : Platform} {config : AppConfig}

namespace Run

variable {r r' r₀ : Run} {act : RunAct} {acts : List RunAct}

/-- **The verdict on a forbidden receiver** is right, in that the receiver has seen no event of
the sender, exactly when it has seen none that the sender gave up. -/
theorem not_received_iff {started : ℤ} {shuffle : ℕ → List Duration → List Duration}
    {options : SafetyOptions} {stop : Bool} {outcome : ScenarioOutcome} {result : AssertionResult}
    (hstart : start config started shuffle options stop = .ok r₀)
    (h : (machine P config).exec r₀ acts = some r)
    (hfresh : (machine P config).Along Fresh r₀ acts)
    (hhonest : (machine P config).Along Honest r₀ acts)
    (hend : r.step P config .evaluate = some r') (hmain : r'.main = .returned outcome)
    (hresult : result ∈ outcome.assertions) (hexpect : result.expectation = .notReceived)
    (hpassed : result.passed = true) :
    (∀ task ∈ r'.tasks, task.participant.id = result.sender →
      ∀ id, .generate (some id) ∈ task.log →
        r'.world.ledger.isSeen result.receiver id = false) ↔
    (machine P config).Along (fun s act => ∀ id ∈ s.givesUp result.sender act,
      r'.world.ledger.isSeen result.receiver id = false) r₀ acts := by
  obtain ⟨-, delays, rfl⟩ := exists_of_mem_start hstart
  have hjoined : r.JoinedDone := Machine.exec_invariant (m := machine P config)
    (fun _ _ _ => joinedDone_step) (joinedDone_spawn delays stop) h
  obtain ⟨hdone, htasks, hworld, failures, hmain'⟩ := evaluate_cases hjoined hend
  obtain rfl := MainPhase.returned.inj (hmain.symm.trans hmain')
  rw [htasks, hworld]
  constructor
  · -- an event that is given up was made by the sender, and stays in its log
    intro hunseen
    by_contra halong
    obtain ⟨before, act, after, u, v, rfl, hbefore, -, hviolated, hstep, hafter⟩ :=
      Machine.exists_violation halong h
    obtain ⟨id, hid, hseen⟩ := by simpa only [not_forall] using hviolated
    have hbooked : ∀ task ∈ u.tasks, Booked task := booked_invariant.run hstart hbefore
    have hmade := exists_task_of_exec hafter
      (exists_task_of_step hstep (exists_of_givesUp hbooked hid))
    obtain ⟨task, htask, hsender, hmade⟩ := hmade
    exact hseen (hunseen task htask hsender id hmade)
  · intro halong task htask hsender id hmade
    -- an event that is seen was delivered, hence published, or given up
    by_contra hseen
    rw [Bool.not_eq_false] at hseen
    have htracked : r.Tracked result.sender
        fun id => r.world.ledger.isSeen result.receiver id = false :=
      Machine.exec_invariant_along (m := machine P config)
        (fun _ _ _ hs hC hstep => hs.step hC.1.1 hC.1.2 hC.2 hstep)
        ((hfresh.and hhonest).and halong) (Tracked.spawn delays stop) h
    obtain ⟨i, hi⟩ := List.mem_iff_getElem?.mp htask
    obtain ⟨j, maker, hj, hdeliver⟩ := htracked.seen _ id hseen ⟨i, task, hi, hmade⟩
    have hmaker := (htracked.booked maker (List.mem_of_getElem? hj)).delivered id hdeliver
    obtain rfl := htracked.unique i j id ⟨task, hi, hmade⟩ ⟨maker, hj, hmaker⟩
    obtain rfl := Option.some.inj (hi.symm.trans hj)
    rcases htracked.kept i task id hi hsender hdeliver with
      ⟨name, sentAt, hpublish⟩ | ⟨s, hs, -⟩ | hQ
    · obtain ⟨rfl, -⟩ := (htracked.booked task htask).published id name sentAt hpublish
      obtain ⟨sentAt', hsent⟩ := htracked.sent i id _ sentAt ⟨task, hi, hpublish⟩
      rw [hsender] at hsent
      have hunseen := CorrelationLedger.isSeen_of_passed hresult hexpect hpassed
        (CorrelationLedger.mem_correlations hsent)
      rw [hunseen] at hseen
      cases hseen
    · rw [hdone task htask] at hs
      cases hs
    · rw [hQ] at hseen
      cases hseen

/-! ## Two runs with a forbidden receiver -/

namespace Leak

/-- A sender. -/
def alice : ParticipantConfig := { id := "alice", role := .sendOnly }

/-- A receiver that must not see the events of the sender. -/
def bob : ParticipantConfig := { id := "bob", role := .receiveOnly }

/-- Two events in a batch, which is cut behind the first one. -/
def forbidding : AppConfig where
  authorization := { acknowledged := true }
  run := { clients := 2, duration := Duration.fromSecs 22, gpsInterval := Duration.fromSecs 5 }
  participants := [alice, bob]
  scenario :=
    { fragmentation := { chunkSizes := [600], eventsPerWrite := 2 }
      routing := [{ sender := "alice", forbiddenReceivers := ["bob"] }] }

/-- Both participants connect. -/
def connecting : List RunAct :=
  [.task 0 .start, .task 0 .delayOver, .task 0 .enterLoop, .task 0 (.connected 0),
    .task 0 .sampled, .task 0 (.session (.barrier .check)), .task 1 .start, .task 1 .delayOver,
    .task 1 .enterLoop, .task 1 (.connected 0), .task 1 .sampled]

/-- The first event of a batch is made. -/
def batching (id : Uuid) : List RunAct :=
  [.elapse 5000000000, .task 0 (.session (.sender (.tick 0 id)))]

/-- The second event fills the batch, and the first one is delivered. -/
def filling (id : Uuid) : List RunAct :=
  [.elapse 5000000000, .task 0 (.session (.sender (.tick 0 id))),
    .task 0 (.session (.sender (.write (.wrote 600)))),
    .task 0 (.session (.sender (.write .flushed)))]

/-- The second event is delivered with the `n` bytes that are left, and both are published. -/
def completing (n : ℕ) : List RunAct :=
  [.task 0 (.session (.sender (.write (.wrote n)))),
    .task 0 (.session (.sender (.write .flushed))), .task 0 (.session (.sender .published))]

/-- The event is read, and recorded. -/
def reading (bytes : List UInt8) : List RunAct :=
  [.task 1 (.session (.reader (.received bytes))), .task 1 (.session (.reader .inspected)),
    .task 1 (.session (.reader .recorded)), .task 1 (.session (.reader .inspected))]

/-- The sender stops at the deadline of the run. -/
def expiring : List RunAct :=
  [.elapse 2000000000, .task 0 (.session (.sender .deadline))]

/-- The write of the second event fails. -/
def failing : List RunAct :=
  [.task 0 (.session (.sender (.write (.failed "writing CoT event" false))))]

/-- The sender is joined, and after a while the receiver, which stops at the deadline. -/
def joining (d : Duration) : List RunAct :=
  [.task 0 .sessionOver, .join 0, .elapse d, .task 1 (.session (.reader .deadline)),
    .task 1 .sessionOver, .join 1]

/-- A sender with a batch. -/
def sender (nextTick : Instant) (eventCount : UInt32) (batch : OutgoingBatch)
    (phase : SenderPhase) : Sender :=
  ⟨5000000000, nextTick, batch, eventCount, phase⟩

/-- A batch with room for another event. -/
def first (bytes : List UInt8) (id : Uuid) (sentAt : Instant) : OutgoingBatch :=
  ⟨bytes, [⟨id, sentAt, bytes.length⟩], 1⟩

/-- A batch with two events. -/
def both (bytes bytes' : List UInt8) (id id' : Uuid) (sentAt sentAt' : Instant) : OutgoingBatch :=
  ⟨bytes ++ bytes', [⟨id, sentAt, bytes.length⟩, ⟨id', sentAt', bytes.length + bytes'.length⟩], 2⟩

/-- Two events that are cut behind the first one. -/
structure Cut (bytes bytes' : List UInt8) : Prop where
  first : bytes.length ≤ 600
  second : 600 < bytes.length + bytes'.length
  total : bytes.length + bytes'.length ≤ 1200
  ne_nil : bytes ≠ []

/-- A reader without a buffer. -/
def idle (phase : ReaderPhase) : Reader := ⟨CotStreamDecoder.new (8 * 1024 * 1024), phase⟩

/-- The run while both are connected. -/
def running (w : World) (s : Sender) (sent : List Effect) (reader : Reader)
    (received : List Effect) : Run where
  world := w
  stop := false
  tasks := [⟨alice, ⟨.connected (.sending s none), 0, 0⟩, sent⟩,
    ⟨bob, ⟨.connected (.receiving reader), 0, 0⟩, received⟩]
  main := .joining [] []

/-- What is recorded when a participant connects. -/
def connection (participant : ParticipantConfig) : List Effect :=
  .add .connectionAttempts 1 :: Participant.countConnected ++
    Participant.recordConnected participant (.handshake 0)

/-- The world once both are connected. -/
def connected : World := (World.initial false).applyAll (connection alice ++ connection bob)

/-- A part of a run, in the world as it is assumed to be. -/
def Follows (P : Platform) (r : Run) (acts : List RunAct) (r' : Run) : Prop :=
  (machine P forbidding).exec r acts = some r' ∧ (machine P forbidding).Along Fresh r acts ∧
    (machine P forbidding).Along Honest r acts

section Steps

variable {r r' r'' : Run} {act : RunAct} {acts acts' : List RunAct} {w : World} {s s' : Sender}
  {a : SenderAct} {sent out received : List Effect} {reader reader' : Reader} {b : ReaderAct}

theorem Follows.refl : Follows P r [] r := ⟨rfl, trivial, trivial⟩

theorem Follows.step (hstep : (machine P forbidding).step r act = some r') (hfresh : r.Fresh act)
    (hhonest : r.Honest act) (h : Follows P r' acts r'') : Follows P r (act :: acts) r'' :=
  ⟨Machine.exec_step hstep h.1, (Machine.along_cons hstep).mpr ⟨hfresh, h.2.1⟩,
    (Machine.along_cons hstep).mpr ⟨hhonest, h.2.2⟩⟩

theorem Follows.append (h : Follows P r acts r') (h' : Follows P r' acts' r'') :
    Follows P r (acts ++ acts') r'' :=
  ⟨Machine.exec_append h.1 h'.1, (Machine.along_append h.1).mpr ⟨h.2.1, h'.2.1⟩,
    (Machine.along_append h.1).mpr ⟨h.2.2, h'.2.2⟩⟩

theorem step_sender (h : s.step P alice forbidding w a = some (s', out))
    (halive : Session.afterSender none s' = .sending s' none) :
    (machine P forbidding).step (running w s sent reader received)
        (.task 0 (.session (.sender a))) =
      some (running (w.applyAll out) s' (sent ++ out) reader received) :=
  step_session (r := running w s sent reader received) (i := 0) rfl
    (Session.step_sending h halive)

theorem step_reader (h : reader.step P bob forbidding w b = some (reader', out))
    (halive : Session.afterReader reader' = .receiving reader') :
    (machine P forbidding).step (running w s sent reader received)
        (.task 1 (.session (.reader b))) =
      some (running (w.applyAll out) s sent reader' (received ++ out)) :=
  step_session (r := running w s sent reader received) (i := 1) rfl
    (Session.step_receiving h halive)

end Steps

theorem start_forbidding :
    Run.start forbidding 0 (fun _ => id) {} false = .ok (spawn forbidding [0, 0] false) := rfl

theorem follows_connecting : Follows P (spawn forbidding [0, 0] false) connecting
    (running connected (sender 5000000000 0 {} .selecting) (connection alice) (idle (.reading 0))
      (connection bob)) := by
  refine ⟨rfl, Machine.along_of_forall ?_, Machine.along_of_forall ?_⟩
  · simp [connecting, Fresh]
  · simp [connecting, Honest]

theorem fragments_cut {bytes bytes' : List UInt8} (h : Cut bytes bytes') :
    fragments forbidding.scenario.fragmentation.chunkSizes (bytes ++ bytes') =
      [(bytes ++ bytes').take 600, (bytes ++ bytes').drop 600] := by
  have hsecond : 600 < (bytes ++ bytes').length := by
    rw [List.length_append]
    exact h.second
  have htotal : (bytes ++ bytes').length ≤ 600 + 600 := by
    rw [List.length_append]
    exact h.total
  have hstart : ¬ (bytes ++ bytes').length ≤ 0 :=
    Nat.not_le.mpr (Nat.lt_of_le_of_lt (Nat.zero_le _) hsecond)
  have hback : ((bytes ++ bytes').drop 600).take ((bytes ++ bytes').length - 600) =
      (bytes ++ bytes').drop 600 := List.take_of_length_le List.length_drop.le
  change fragmentLoop [600] (bytes ++ bytes') 0 0 = _
  rw [fragmentLoop.eq_def, if_neg hstart]
  simp only [List.length_singleton, Nat.mod_one, List.getD_cons_zero, Nat.zero_add,
    Nat.max_eq_left (by decide : 1 ≤ 600), Nat.min_eq_left (Nat.le_of_lt hsecond)]
  rw [fragmentLoop.eq_def, if_neg (Nat.not_le.mpr hsecond)]
  simp only [List.length_singleton, Nat.mod_one, List.getD_cons_zero,
    Nat.max_eq_left (by decide : 1 ≤ 600), Nat.min_eq_right htotal]
  rw [fragmentLoop.eq_def, if_pos (Nat.le_refl _), hback]
  rfl

section Stages

variable {w : World} {s : Sender} {sent received : List Effect} {reader : Reader}
  {eventCount : UInt32} {bytes bytes' : List UInt8} {id id' : Uuid} {raw : String}
  {nextTick since since' : Instant}

/-- What a sender knows of a fresh id. -/
def IsNew (w : World) (sent received : List Effect) (id : Uuid) : Prop :=
  .generate (some id) ∉ sent ∧ .generate (some id) ∉ received ∧
    ∀ receiver, w.ledger.isSeen receiver id = false

theorem step_elapse (now : Instant) (hnow : w.now + 5000000000 = now) :
    (machine P forbidding).step (running w s sent reader received) (.elapse 5000000000) =
      some (running { w with now } s sent reader received) := by
  subst hnow
  rfl

theorem step_tick {now : Instant} {batch : OutgoingBatch} {utc : OffsetDateTime}
    {p : Sender × List Effect}
    (h : (sender now eventCount batch .selecting).tick P alice forbidding now utc id = p) :
    (sender now eventCount batch .selecting).step P alice forbidding { w with now }
      (.tick utc id) = some p := by
  rw [← h]
  exact if_pos (Nat.le_refl _)

theorem fresh_tick {now : Instant} (h : IsNew w sent received id) :
    (running { w with now } s sent reader received).Fresh
      (.task 0 (.session (.sender (.tick 0 id)))) := by
  simpa [Fresh, running, IsNew, and_assoc] using h

theorem follows_batching (now : Instant)
    (hbytes : Utf8.asBytes (positionXml P alice forbidding 0 id) = bytes)
    (hlimit : bytes.length ≤ 600) (hnow : w.now + 5000000000 = now)
    (hnew : IsNew w sent received id) :
    Follows P (running w (sender now eventCount {} .selecting) sent reader received) (batching id)
      (running { w with now }
        (sender (now + 5000000000) (eventCount + 1) (first bytes id now) .selecting)
        (sent ++ [.generate (some id)]) reader received) := by
  have hnext : nextTimeout now now 5000000000 = now + 5000000000 := by simp [nextTimeout]
  have hroom : (sender now eventCount {} .selecting).tick P alice forbidding now 0 id = _ :=
    Sender.tick_of_room rfl rfl hbytes
      (by simpa [sender] using hlimit.trans (by decide)) (by decide : 0 + 1 < max 2 1)
  have htick : (sender now eventCount {} .selecting).tick P alice forbidding now 0 id =
      (sender (now + 5000000000) (eventCount + 1) (first bytes id now) .selecting,
        [.generate (some id)]) := by
    refine hroom.trans ?_
    simp [sender, first, Sender.withPosition, Sender.push, hnext]
  exact .step (step_elapse now hnow) trivial trivial
    (.step (step_sender (step_tick htick) rfl) (fresh_tick hnew) trivial .refl)

theorem follows_filling (now : Instant)
    (hbytes : Utf8.asBytes (positionXml P alice forbidding 0 id') = bytes')
    (hcut : Cut bytes bytes') (hnow : w.now + 5000000000 = now)
    (hnew : IsNew w sent received id') :
    Follows P (running w (sender now eventCount (first bytes id since) .selecting) sent reader
        received)
      (filling id')
      (running { w with now }
        (sender (now + 5000000000) (eventCount + 1) (both bytes bytes' id id' since now)
          (.flushing ⟨[(bytes ++ bytes').drop 600], 600, now⟩ .batch))
        (sent ++ [.generate (some id')] ++ [.write ((bytes ++ bytes').take 600), .deliver id] ++
          [.write []]) reader received) := by
  have hfirst := hcut.first
  have hsecond := hcut.second
  have hpos : 0 < bytes.length := List.length_pos_of_ne_nil hcut.ne_nil
  have hne' : bytes' ≠ [] := by
    rintro rfl
    exact absurd hsecond (Nat.not_lt.mpr hfirst)
  have hnext : nextTimeout now now 5000000000 = now + 5000000000 := by simp [nextTimeout]
  have hfull : (sender now eventCount (first bytes id since) .selecting).tick P alice forbidding
      now 0 id' = _ :=
    Sender.tick_of_full rfl (fragments_cut hcut) hbytes
      (by simpa [sender, first] using hcut.total.trans (by decide)) le_rfl hne'
  -- the batch of two events is full, and is written at once
  have htick : (sender now eventCount (first bytes id since) .selecting).tick P alice forbidding
      now 0 id' =
      (sender (now + 5000000000) (eventCount + 1) (both bytes bytes' id id' since now)
        (.flushing ⟨[(bytes ++ bytes').take 600, (bytes ++ bytes').drop 600], 0, now⟩ .batch),
        [.generate (some id')]) := by
    refine hfull.trans ?_
    simp [sender, first, both, Sender.withPosition, Sender.push, hnext]
  have hfront : ((bytes ++ bytes').take 600).length = 600 := by
    rw [List.length_take, List.length_append, Nat.min_eq_left (Nat.le_of_lt hsecond)]
  have hlast : ¬ bytes.length + bytes'.length ≤ 600 := Nat.not_le.mpr hsecond
  have hwrite : (sender (now + 5000000000) (eventCount + 1) (both bytes bytes' id id' since now)
      (.flushing ⟨[(bytes ++ bytes').take 600, (bytes ++ bytes').drop 600], 0, now⟩ .batch)).step
        P alice forbidding { w with now } (.write (.wrote 600)) =
      some (sender (now + 5000000000) (eventCount + 1) (both bytes bytes' id id' since now)
        (.flushing ⟨[[], (bytes ++ bytes').drop 600], 600, now⟩ .batch),
        [.write ((bytes ++ bytes').take 600), .deliver id]) := by
    have hdrop : ((bytes ++ bytes').take 600).drop 600 = [] :=
      List.drop_eq_nil_of_le hfront.le
    have htake : ((bytes ++ bytes').take 600).take 600 = (bytes ++ bytes').take 600 :=
      List.take_of_length_le hfront.le
    simp [Sender.step, Write.step, sender, both, Sender.flushOutcome, Sender.delivered, hfront,
      hdrop, htake, hpos, hfirst, hlast]
  have hflush : (sender (now + 5000000000) (eventCount + 1) (both bytes bytes' id id' since now)
      (.flushing ⟨[[], (bytes ++ bytes').drop 600], 600, now⟩ .batch)).step
        P alice forbidding { w with now } (.write .flushed) =
      some (sender (now + 5000000000) (eventCount + 1) (both bytes bytes' id id' since now)
        (.flushing ⟨[(bytes ++ bytes').drop 600], 600, now⟩ .batch), [.write []]) := by
    simp [Sender.step, Write.step, sender, both, Sender.flushOutcome, Sender.delivered]
  exact .step (step_elapse now hnow) trivial trivial
    (.step (step_sender (step_tick htick) rfl) (fresh_tick hnew) trivial
      (.step (step_sender hwrite rfl) trivial trivial
        (.step (step_sender hflush rfl) trivial trivial .refl)))

/-- The world once a batch is published. -/
def published (w : World) (id id' : Uuid) (sentAt sentAt' : Instant) : World :=
  ((w.apply (.add .sentMessages 2)).apply (.publish id "alice" sentAt)).apply
    (.publish id' "alice" sentAt')

theorem follows_completing (hcut : Cut bytes bytes') :
    Follows P
      (running w (sender nextTick eventCount (both bytes bytes' id id' since since')
        (.flushing ⟨[(bytes ++ bytes').drop 600], 600, since'⟩ .batch)) sent reader received)
      (completing (bytes.length + bytes'.length - 600))
      (running (published w id id' since since') (sender nextTick eventCount {} .selecting)
        (sent ++ [.write ((bytes ++ bytes').drop 600), .deliver id'] ++
          [.write [], .add .sentMessages 2] ++
          [.publish id "alice" since, .publish id' "alice" since']) reader received) := by
  have hfirst := hcut.first
  have hsecond := hcut.second
  have hback : ((bytes ++ bytes').drop 600).length = bytes.length + bytes'.length - 600 := by
    rw [List.length_drop, List.length_append]
  have hpos : 0 < bytes.length + bytes'.length - 600 := Nat.sub_pos_of_lt hsecond
  have hend : 600 + (bytes.length + bytes'.length - 600) = bytes.length + bytes'.length :=
    Nat.add_sub_of_le (Nat.le_of_lt hsecond)
  have hwrite : (sender nextTick eventCount (both bytes bytes' id id' since since')
      (.flushing ⟨[(bytes ++ bytes').drop 600], 600, since'⟩ .batch)).step P alice forbidding w
        (.write (.wrote (bytes.length + bytes'.length - 600))) =
      some (sender nextTick eventCount (both bytes bytes' id id' since since')
        (.flushing ⟨[[]], bytes.length + bytes'.length, since'⟩ .batch),
        [.write ((bytes ++ bytes').drop 600), .deliver id']) := by
    have hdrop : ((bytes ++ bytes').drop 600).drop (bytes.length + bytes'.length - 600) = [] :=
      List.drop_eq_nil_of_le hback.le
    have htake : ((bytes ++ bytes').drop 600).take (bytes.length + bytes'.length - 600) =
        (bytes ++ bytes').drop 600 := List.take_of_length_le hback.le
    simp only [Sender.step, Write.step, sender, both, hback, hpos, le_refl, and_self, if_true,
      hdrop, htake, hend, Option.map_some, Sender.flushOutcome, Sender.delivered]
    simp [Nat.not_lt.mpr hfirst, hsecond]
  have hflush : (sender nextTick eventCount (both bytes bytes' id id' since since')
      (.flushing ⟨[[]], bytes.length + bytes'.length, since'⟩ .batch)).step P alice forbidding w
        (.write .flushed) =
      some (sender nextTick eventCount (both bytes bytes' id id' since since')
        (.publishing .batch), [.write [], .add .sentMessages 2]) := by
    simp [Sender.step, Write.step, sender, both, Sender.flushOutcome, Sender.delivered]
  have hpublish : (sender nextTick eventCount (both bytes bytes' id id' since since')
      (.publishing .batch)).step P alice forbidding (w.apply (.add .sentMessages 2)) .published =
      some (sender nextTick eventCount {} .selecting,
        [.publish id "alice" since, .publish id' "alice" since']) := rfl
  exact .step (step_sender hwrite rfl) trivial trivial
    (.step (step_sender hflush rfl) trivial trivial
      (.step (step_sender hpublish rfl) trivial trivial .refl))

/-- The world after an event is read. -/
def readWorld (w : World) (id : Uuid) : World :=
  (w.apply (.add .receivedMessages 1)).applyAll
    (Reader.record bob (w.apply (.add .receivedMessages 1)) id)

theorem follows_reading (hne : bytes ≠ []) (hlimit : bytes.length ≤ 8192)
    (hpush : (idle (.reading since)).push P bytes = idle (.recording [raw]))
    (hinspect : ∃ event, inspectEvent P raw = .ok event ∧ event.correlationId = some id)
    (hdeliver : .deliver id ∈ sent) :
    Follows P (running w s sent (idle (.reading since)) received) (reading bytes)
      (running (readWorld w id) s sent (idle (.reading w.now))
        (received ++ [.add .receivedMessages 1] ++
          Reader.record bob (w.apply (.add .receivedMessages 1)) id)) := by
  obtain ⟨event, hevent, hid⟩ := hinspect
  have hreceived : (idle (.reading since)).step P bob forbidding w (.received bytes) =
      some (idle (.recording [raw]), []) := by
    rw [← hpush]
    exact if_pos ⟨List.length_pos_of_ne_nil hne, hlimit⟩
  have hinspected : (idle (.recording [raw])).step P bob forbidding w .inspected =
      some (idle (.locking id []), [.add .receivedMessages 1]) := by
    simp only [Reader.step, idle, hevent, hid]
  have hrecorded : (idle (.locking id [])).step P bob forbidding
      (w.apply (.add .receivedMessages 1)) .recorded =
      some (idle (.recording []),
        Reader.record bob (w.apply (.add .receivedMessages 1)) id) := rfl
  have hempty : (idle (.recording [])).step P bob forbidding (readWorld w id) .inspected =
      some (idle (.reading w.now), []) := by
    simp only [Reader.step, idle, readWorld, World.applyAll_now, World.apply_now]
  refine .step (step_reader hreceived rfl) trivial trivial
    (.step (step_reader hinspected rfl) trivial trivial
      (.step (step_reader hrecorded rfl) trivial ?_
        (.step (step_reader hempty rfl) trivial trivial ?_)))
  · -- the event that is recorded is the one that was delivered
    rintro task reader id' htask hreader hid' -
    obtain rfl := Option.some.inj htask
    obtain rfl := Option.some.inj hreader
    obtain rfl := Option.some.inj hid'
    exact ⟨_, List.mem_cons_self, hdeliver⟩
  · simpa [readWorld] using Follows.refl

end Stages

section Runs

variable {w : World} {bytes bytes' : List UInt8} {raw : String} {sent received : List Effect}
  {since : Instant} {result : Except Failure Unit}

/-- The run while the session of the sender is over. -/
def halted (w : World) (result : Except Failure Unit) (sent : List Effect) (reader : Reader)
    (received : List Effect) : Run where
  world := w
  stop := false
  tasks := [⟨alice, ⟨.connected (.returned result), 0, 0⟩, sent⟩,
    ⟨bob, ⟨.connected (.receiving reader), 0, 0⟩, received⟩]
  main := .joining [] []

/-- The run once the sender is joined. -/
def joined (w : World) (result : Except Failure Unit) (sent : List Effect) (reader : Reader)
    (received : List Effect) : Run where
  world := w
  stop := false
  tasks := [⟨alice, ⟨.returned result, 0, 0⟩, sent⟩,
    ⟨bob, ⟨.connected (.receiving reader), 0, 0⟩, received⟩]
  main := .joining (taskFailure "alice" (some result)) [0]

/-- What is recorded when the sender disconnects. -/
def disconnection (w : World) (result : Except Failure Unit) : List Effect :=
  Participant.recordSessionOver alice forbidding w ⟨.connected (.returned result), 0, 0⟩ result

/-- The tasks are joined, and the assertions evaluated. -/
theorem Follows.exists_joined {r₀ : Run} {acts : List RunAct} {d : Duration}
    (h : Follows P r₀ acts (halted w result sent (idle (.reading since)) received))
    (hw : w.now + d = 22000000000) :
    ∃ r r', Follows P r₀ (acts ++ joining d) r ∧ r.step P forbidding .evaluate = some r' ∧
      r'.main = .returned ⟨w.ledger.evaluateRouting forbidding.scenario.routing,
        taskFailure "alice" (some result)⟩ ∧
      r'.world.ledger = w.ledger ∧ r'.world.recorded = w.recorded ∧
      ∀ e ∈ sent, ∃ task ∈ r'.tasks, task.participant.id = "alice" ∧ e ∈ task.log := by
  have hfresh : ∀ r, ∀ act ∈ joining d, Fresh r act := by simp [joining, Fresh]
  have hhonest : ∀ r, ∀ act ∈ joining d, Honest r act := by simp [joining, Honest]
  have hleave : (machine P forbidding).exec
      (halted w result sent (idle (.reading since)) received) [.task 0 .sessionOver, .join 0] =
      some (joined (w.applyAll (disconnection w result)) result (sent ++ disconnection w result)
        (idle (.reading since)) received) := by
    cases result <;> rfl
  have hledger : (w.applyAll (disconnection w result)).ledger = w.ledger := by
    cases result <;> rfl
  have hrecorded : (w.applyAll (disconnection w result)).recorded = w.recorded := by
    cases result <;> rfl
  have hnow : (w.applyAll (disconnection w result)).now = w.now := World.applyAll_now _ _
  have hlog : ∀ e ∈ sent, e ∈ sent ++ disconnection w result :=
    fun e he => List.mem_append_left _ he
  rw [← hledger, ← hrecorded]
  rw [← hnow] at hw
  generalize w.applyAll (disconnection w result) = w' at hleave hw
  generalize sent ++ disconnection w result = sent' at hleave hlog
  have helapse : (machine P forbidding).step
      (joined w' result sent' (idle (.reading since)) received) (.elapse d) =
      some (joined { w' with now := 22000000000 } result sent' (idle (.reading since))
        received) := by
    rw [← hw]
    rfl
  obtain ⟨now, stop, ready, notifications, ledger, counters, recorded, lifecycle⟩ := w'
  exact ⟨_, _, h.append ⟨Machine.exec_append hleave (Machine.exec_step helapse rfl),
    Machine.along_of_forall hfresh, Machine.along_of_forall hhonest⟩, rfl,
    congrArg (fun failures => MainPhase.returned ⟨_, failures⟩) (List.append_nil _), rfl, rfl,
    fun e he => ⟨_, List.mem_cons_self, rfl, hlog e he⟩⟩

/-- The sender stops at the deadline. -/
theorem follows_expiring {nextTick : Instant} {eventCount : UInt32} {reader : Reader}
    (hnow : w.now + 2000000000 = 22000000000) :
    Follows P (running w (sender nextTick eventCount {} .selecting) sent reader received) expiring
      (halted { w with now := 22000000000 } (.ok ()) sent reader received) := by
  have helapse : (machine P forbidding).step
      (running w (sender nextTick eventCount {} .selecting) sent reader received)
        (.elapse 2000000000) =
      some (running { w with now := 22000000000 } (sender nextTick eventCount {} .selecting) sent
        reader received) := by
    rw [← hnow]
    rfl
  have hover : (machine P forbidding).step
      (running { w with now := 22000000000 } (sender nextTick eventCount {} .selecting) sent reader
        received) (.task 0 (.session (.sender .deadline))) =
      some (halted { w with now := 22000000000 } (.ok ()) (sent ++ []) reader received) := rfl
  rw [List.append_nil] at hover
  exact .step helapse trivial trivial (.step hover trivial trivial .refl)

/-- The write of the second event fails. -/
theorem follows_failing {nextTick : Instant} {eventCount : UInt32} {reader : Reader}
    {id id' : Uuid} {since since' : Instant} {fragment : List UInt8} :
    Follows P (running w (sender nextTick eventCount (both bytes bytes' id id' since since')
        (.flushing ⟨[fragment], 600, since'⟩ .batch)) sent reader received) failing
      (halted (w.apply (.add .droppedMessages 2)) (.error [.runtime .write])
        (sent ++ [.write [], .add .droppedMessages 2]) reader received) := by
  have hfailed : (sender nextTick eventCount (both bytes bytes' id id' since since')
      (.flushing ⟨[fragment], 600, since'⟩ .batch)).step P alice forbidding w
        (.write (.failed "writing CoT event" false)) =
      some ((sender nextTick eventCount (both bytes bytes' id id' since since')
        (.flushing ⟨[fragment], 600, since'⟩ .batch)).fail,
        [.write [], .add .droppedMessages 2]) := by
    simp [Sender.step, Write.step, sender, both, Sender.flushOutcome, Sender.delivered,
      recordWriteFailure]
  have hover : (machine P forbidding).step
      (running w (sender nextTick eventCount (both bytes bytes' id id' since since')
        (.flushing ⟨[fragment], 600, since'⟩ .batch)) sent reader received)
      (.task 0 (.session (.sender (.write (.failed "writing CoT event" false))))) =
      some (halted (w.apply (.add .droppedMessages 2)) (.error [.runtime .write])
        (sent ++ [.write [], .add .droppedMessages 2]) reader received) := by
    simp only [machine, Run.step, running, List.getElem?_cons_zero, Participant.step, Session.step,
      hfailed, Option.map_some]
    rfl
  exact .step hover trivial trivial .refl

/-- The bytes of an event. -/
def text (P : Platform) (id : Uuid) : List UInt8 :=
  Utf8.asBytes (positionXml P alice forbidding 0 id)

/-- The world once the first batch is published. -/
def halfway : World :=
  published { connected with now := 10000000000 } 5 6 5000000000 10000000000

/-- What the sender has done then. -/
def sentBatch (P : Platform) : List Effect :=
  connection alice ++ [.generate (some 5)] ++ [.generate (some 6)] ++
    [.write ((text P 5 ++ text P 6).take 600), .deliver 5] ++ [.write []] ++
    [.write ((text P 5 ++ text P 6).drop 600), .deliver 6] ++
    [.write [], .add .sentMessages 2] ++
    [.publish 5 "alice" 5000000000, .publish 6 "alice" 10000000000]

/-- The first batch is published. -/
theorem follows_first (hcut : Cut (text P 5) (text P 6)) :
    ∃ acts, Follows P (spawn forbidding [0, 0] false) acts
      (running halfway (sender 15000000000 2 {} .selecting) (sentBatch P) (idle (.reading 0))
        (connection bob)) := by
  have hfirst := follows_connecting.append (follows_batching (P := P) 5000000000 rfl hcut.first rfl
    ⟨by decide, by decide, fun _ => rfl⟩)
  have hsecond := hfirst.append (follows_filling 10000000000 rfl hcut rfl
    ⟨by simp [connection, Participant.countConnected, Participant.recordConnected,
      Participant.recordSample], by decide, fun _ => rfl⟩)
  exact ⟨_, hsecond.append (follows_completing hcut)⟩

/-- The first event of the second batch is delivered. -/
theorem follows_second (hcut : Cut (text P 5) (text P 6)) (hcut' : Cut (text P 7) (text P 8)) :
    ∃ acts, Follows P (spawn forbidding [0, 0] false) acts
      (running { halfway with now := 20000000000 }
        (sender 25000000000 4 (both (text P 7) (text P 8) 7 8 15000000000 20000000000)
          (.flushing ⟨[(text P 7 ++ text P 8).drop 600], 600, 20000000000⟩ .batch))
        (sentBatch P ++ [.generate (some 7)] ++ [.generate (some 8)] ++
          [.write ((text P 7 ++ text P 8).take 600), .deliver 7] ++ [.write []])
        (idle (.reading 0)) (connection bob)) := by
  obtain ⟨acts, hfirst⟩ := follows_first hcut
  have hthird := hfirst.append (follows_batching 15000000000 rfl hcut'.first rfl
    ⟨by simp [sentBatch, connection, Participant.countConnected, Participant.recordConnected,
      Participant.recordSample], by decide, fun _ => rfl⟩)
  exact ⟨_, hthird.append (follows_filling 20000000000 rfl hcut' rfl
    ⟨by simp [sentBatch, connection, Participant.countConnected, Participant.recordConnected,
      Participant.recordSample], by decide, fun _ => rfl⟩)⟩

/-- A run in which all events are published, and none is seen. -/
theorem exists_sent (hcut : Cut (text P 5) (text P 6)) (hcut' : Cut (text P 7) (text P 8)) :
    ∃ acts r r', Follows P (spawn forbidding [0, 0] false) acts r ∧
      r.step P forbidding .evaluate = some r' ∧
      r'.main = .returned { assertions := [⟨"alice", "bob", .notReceived, true, 0⟩] } ∧
      ∀ id, r'.world.ledger.isSeen "bob" id = false := by
  obtain ⟨acts, hsecond⟩ := follows_second hcut hcut'
  have hsent := hsecond.append (follows_completing hcut')
  obtain ⟨r, r', hrun, heval, hmain, hledger, -, -⟩ :=
    (hsent.append (follows_expiring rfl)).exists_joined (d := 0) rfl
  refine ⟨_, r, r', hrun, heval, hmain, fun id => ?_⟩
  rw [hledger]
  rfl

/-- A run in which the first event of the second batch is seen, and given up when the write of the
second one fails. -/
theorem exists_leak (hcut : Cut (text P 5) (text P 6)) (hcut' : Cut (text P 7) (text P 8))
    (hpush : ∀ since, (idle (.reading since)).push P (text P 7) = idle (.recording [raw]))
    (hinspect : ∃ event, inspectEvent P raw = .ok event ∧ event.correlationId = some 7) :
    ∃ acts r r' failures, Follows P (spawn forbidding [0, 0] false) acts r ∧
      r.step P forbidding .evaluate = some r' ∧
      r'.main = .returned ⟨[⟨"alice", "bob", .notReceived, true, 0⟩], failures⟩ ∧
      (∃ task ∈ r'.tasks, task.participant.id = "alice" ∧ .generate (some 7) ∈ task.log) ∧
      r'.world.ledger.isSeen "bob" 7 = true := by
  obtain ⟨acts, hsecond⟩ := follows_second hcut hcut'
  have hread := hsecond.append (follows_reading hcut'.ne_nil
    (hcut'.first.trans (by decide)) (hpush _) hinspect (by simp))
  obtain ⟨r, r', hrun, heval, hmain, hledger, -, htask⟩ :=
    (hread.append follows_failing).exists_joined (d := 2000000000) rfl
  refine ⟨_, r, r', _, hrun, heval, hmain, htask _ (by simp), ?_⟩
  rw [hledger]
  rfl

end Runs

theorem idle_push (hS : P.Standard) (hP : P.Plain) {e : PositionEvent}
    (hlimit : (Utf8.asBytes (e.toXml P)).length ≤ 8 * 1024 * 1024) (since : Instant) :
    (idle (.reading since)).push P (Utf8.asBytes (e.toXml P)) = idle (.recording [e.toXml P]) := by
  rw [Reader.push, idle, push_toXml hS hP hlimit]
  rfl

theorem cut_text {id id' : Uuid}
    (h : (positionXml Reference.platform alice forbidding 0 id).utf8ByteSize = 451)
    (h' : (positionXml Reference.platform alice forbidding 0 id').utf8ByteSize = 451) :
    Cut (text Reference.platform id) (text Reference.platform id') where
  first := by rw [text, Utf8.length_asBytes, h]; decide
  second := by rw [text, text, Utf8.length_asBytes, Utf8.length_asBytes, h, h']; decide
  total := by rw [text, text, Utf8.length_asBytes, Utf8.length_asBytes, h, h']; decide
  ne_nil := asBytes_toXml_ne_nil _

/-- The events of the two batches are cut behind the first one. -/
theorem cut_batches : Cut (text Reference.platform 5) (text Reference.platform 6) ∧
    Cut (text Reference.platform 7) (text Reference.platform 8) :=
  ⟨cut_text (by decide +kernel) (by decide +kernel),
    cut_text (by decide +kernel) (by decide +kernel)⟩

/-- What a reader makes of an event. -/
theorem reference_reading (id : Uuid) :
    (∀ since, (idle (.reading since)).push Reference.platform (text Reference.platform id) =
        idle (.recording [positionXml Reference.platform alice forbidding 0 id])) ∧
      ∃ event, inspectEvent Reference.platform
        (positionXml Reference.platform alice forbidding 0 id) = .ok event ∧
          event.correlationId = some id :=
  ⟨idle_push Reference.platform_standard Reference.platform_plain
    ((Reference.length_toXml_le _).trans (show 4 * ((escape "tak-bench-alice").toList.length +
      (escape "alice").toList.length + 600) ≤ 8 * 1024 * 1024 by decide)),
    _, inspectEvent_toXml Reference.platform_standard Reference.platform_plain _, rfl⟩

end Leak

/-- The verdict is right on a run whose events are all published. -/
theorem not_received_iff_sent :
    ∃ acts r r', (machine Reference.platform Leak.forbidding).exec
        (spawn Leak.forbidding [0, 0] false) acts = some r ∧
      r.step Reference.platform Leak.forbidding .evaluate = some r' ∧
      (machine Reference.platform Leak.forbidding).Along (fun s act =>
        ∀ id ∈ s.givesUp "alice" act, r'.world.ledger.isSeen "bob" id = false)
        (spawn Leak.forbidding [0, 0] false) acts := by
  obtain ⟨acts, r, r', ⟨hexec, hfresh, hhonest⟩, hend, hmain, hunseen⟩ :=
    Leak.exists_sent Leak.cut_batches.1 Leak.cut_batches.2
  exact ⟨acts, r, r', hexec, hend, (not_received_iff Leak.start_forbidding hexec hfresh hhonest
    hend hmain (List.mem_singleton_self _) rfl rfl).mp fun _ _ _ id _ => hunseen id⟩

/-- A run of an accepted configuration in which the receiver sees an event that is forbidden, and
the verdict is that it has not. -/
theorem forbidden_received :
    start Leak.forbidding 0 (fun _ => id) {} false = .ok (spawn Leak.forbidding [0, 0] false) ∧
      ∃ acts r r' outcome result, (machine Reference.platform Leak.forbidding).exec
          (spawn Leak.forbidding [0, 0] false) acts = some r ∧
        (machine Reference.platform Leak.forbidding).Along Fresh
          (spawn Leak.forbidding [0, 0] false) acts ∧
        (machine Reference.platform Leak.forbidding).Along Honest
          (spawn Leak.forbidding [0, 0] false) acts ∧
        r.step Reference.platform Leak.forbidding .evaluate = some r' ∧
        r'.main = .returned outcome ∧ result ∈ outcome.assertions ∧
        result.expectation = .notReceived ∧ result.passed = true ∧
        ∃ task ∈ r'.tasks, task.participant.id = result.sender ∧
          ∃ id, .generate (some id) ∈ task.log ∧
            r'.world.ledger.isSeen result.receiver id = true := by
  obtain ⟨hpush, hinspect⟩ := Leak.reference_reading 7
  obtain ⟨acts, r, r', failures, ⟨hexec, hfresh, hhonest⟩, hend, hmain,
      ⟨task, htask, hsender, hmade⟩, hseen⟩ :=
    Leak.exists_leak Leak.cut_batches.1 Leak.cut_batches.2 hpush hinspect
  exact ⟨Leak.start_forbidding, acts, r, r', _, _, hexec, hfresh, hhonest, hend, hmain,
    List.mem_singleton_self _, rfl, rfl, task, htask, hsender, 7, hmade, hseen⟩

end Run

end TakBench
