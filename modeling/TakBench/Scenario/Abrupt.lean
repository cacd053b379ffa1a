import TakBench.Scenario.Throughput

/-!
# Abrupt disconnects

With abrupt disconnects enabled a sender leaves after the tick that reaches the limit of its
connection, whatever it still holds. So a connection makes no more events than its limit, and a
run no more than its connections allow. When a batch is larger than the limit it is never full: no
event of the run is written, and what a sender holds when it leaves is dropped.

## Main definitions

* `disconnectLimit`: the events after which a sender disconnects
* `Sender.Within`: a sender has made no more events than its limit
* `Sender.Unwritten`: a sender has written nothing so far

## Main results

* `Sender.Within.step`, `Sender.Unwritten.step`: what a step of a sender preserves
* `Run.disconnects_bound`: the events of a run with abrupt disconnects
-/

namespace TakBench

variable {P : Platform} {participant : ParticipantConfig} {config : AppConfig} {w : World}
  {out : List Effect}

/-- The events after which a sender disconnects. -/
def disconnectLimit (config : AppConfig) : UInt32 :=
  max config.scenario.abruptDisconnect.afterEvents 1

theorem disconnectLimit_pos : 0 < disconnectLimit config := by
  have hmax : disconnectLimit config = if config.scenario.abruptDisconnect.afterEvents ≤ 1 then 1
      else config.scenario.abruptDisconnect.afterEvents := rfl
  rw [hmax]
  split
  · decide
  · next hle =>
    rw [UInt32.le_iff_toNat_le, UInt32.toNat_one] at hle
    rw [UInt32.lt_iff_toNat_lt, UInt32.toNat_zero]
    omega

/-! ## A sender -/

/-- Nothing is written, counted as sent or published. -/
def Effect.Unsent : Effect → Prop
  | .add counter _ => counter ≠ .sentMessages
  | .publish _ _ _ | .write _ | .deliver _ => False
  | _ => True

theorem Effect.Quiet.unsent {e : Effect} (h : e.Quiet) : e.Unsent := by
  cases e with
  | add counter n => exact h.1
  | generate | publish | write | deliver => exact h.elim
  | _ => trivial

theorem recordLocalDrop_unsent (events : ℕ) : ∀ e ∈ recordLocalDrop events, e.Unsent := by
  simp [recordLocalDrop, Effect.Unsent]

namespace Sender

variable {s s' : Sender} {act : SenderAct}

/-- A sender that goes on selecting is below its limit. -/
def Continues (config : AppConfig) (s : Sender) : Prop :=
  s.phase = .selecting → s.eventCount < disconnectLimit config

theorem continues_leave : Continues config s.leave.1 := by
  intro hphase
  cases hphase

theorem continues_endTick (habrupt : config.scenario.abruptDisconnect.enabled = true) :
    Continues config (s.endTick config).1 := by
  rw [endTick]
  split
  · exact continues_leave
  · next hbelow =>
    intro _
    rw [not_and] at hbelow
    exact UInt32.not_le.mp (hbelow habrupt)

theorem continues_flushOutcome (next : AfterFlush) (outcome : WriteOutcome) :
    Continues config (s.flushOutcome next outcome).1 := by
  intro hphase
  cases outcome <;> cases hphase

theorem continues_frameOutcome (habrupt : config.scenario.abruptDisconnect.enabled = true)
    (outcome : WriteOutcome) : Continues config (s.frameOutcome config outcome).1 := by
  cases outcome with
  | pending write =>
    intro hphase
    cases hphase
  | done => exact continues_endTick habrupt
  | failed failure =>
    intro hphase
    cases hphase

theorem continues_afterFlush (habrupt : config.scenario.abruptDisconnect.enabled = true)
    (now : Instant) (next : AfterFlush) : Continues config (s.afterFlush config now next).1 := by
  cases next with
  | batch => exact continues_endTick habrupt
  | frame bytes => exact continues_frameOutcome habrupt _

theorem continues_flush (habrupt : config.scenario.abruptDisconnect.enabled = true)
    (now : Instant) (next : AfterFlush) : Continues config (s.flush config now next).1 := by
  rw [flush]
  split
  · exact continues_afterFlush habrupt _ _
  · exact continues_flushOutcome _ _

theorem continues_dispatch (habrupt : config.scenario.abruptDisconnect.enabled = true)
    (now : Instant) (utc : OffsetDateTime) (id : Uuid) :
    Continues config (s.dispatch P participant config now utc id).1 := by
  rw [dispatch]
  split
  · exact continues_flush habrupt _ _
  · rw [append]
    split
    · intro hphase
      cases hphase
    · split
      · exact continues_flush habrupt _ _
      · exact continues_endTick habrupt

/-- A sender that goes on after a step is below its limit. -/
theorem continues_step (habrupt : config.scenario.abruptDisconnect.enabled = true)
    (h : s.step P participant config w act = some (s', out)) : Continues config s' := by
  cases steps_of_step h with
  | tick utc id _ _ hp =>
    obtain ⟨rfl, -⟩ := Prod.mk.inj hp
    exact continues_dispatch habrupt _ _ _
  | stopped _ _ hp | deadline _ _ hp =>
    obtain ⟨rfl, -⟩ := Prod.mk.inj hp
    exact continues_leave
  | flush _ write next outcome bytes _ _ hp =>
    obtain ⟨rfl, -⟩ := Prod.mk.inj hp
    exact continues_flushOutcome _ _
  | frame _ write outcome bytes _ _ hp =>
    obtain ⟨rfl, -⟩ := Prod.mk.inj hp
    exact continues_frameOutcome habrupt _
  | publish next _ hp =>
    obtain ⟨rfl, -⟩ := Prod.mk.inj hp
    exact continues_afterFlush habrupt _ _

/-- A sender has made no more events than its limit, and fewer while it goes on. -/
structure Within (config : AppConfig) (s : Sender) : Prop where
  le_limit : s.eventCount ≤ disconnectLimit config
  continues : s.Continues config

theorem within_new (created : Instant) (interval : Duration) :
    (Sender.new created interval).Within config :=
  ⟨UInt32.le_of_lt disconnectLimit_pos, fun _ => disconnectLimit_pos⟩

/-- **A sender stays within its limit**, and its counter counts the events that it makes. -/
theorem Within.step (habrupt : config.scenario.abruptDisconnect.enabled = true)
    (hs : s.Within config) (h : s.step P participant config w act = some (s', out)) :
    s'.Within config ∧ s'.eventCount.toNat = s.eventCount.toNat + total Effect.generated out := by
  have hcontinues := continues_step habrupt h
  rcases step_cases h with ⟨utc, id, rfl, -, effects, rfl, hkeeps⟩ | ⟨-, -, -, hcount, -, hsends⟩
  · -- a tick is made below the limit, so the counter does not wrap
    have hselecting : s.phase = .selecting := by
      cases steps_of_step h with
      | tick _ _ hphase => exact hphase
    have hbelow := UInt32.lt_iff_toNat_lt.mp (hs.continues hselecting)
    have hlimit : (disconnectLimit config).toNat < 2 ^ 32 := UInt32.toNat_lt _
    have hcount : s'.eventCount = s.eventCount + 1 := hkeeps.eventCount
    have hnat : s'.eventCount.toNat = s.eventCount.toNat + 1 := by
      rw [hcount, UInt32.toNat_add, UInt32.toNat_one, Nat.mod_eq_of_lt (by omega)]
    have hone : total Effect.generated (.generate (s.eventId config id) :: effects) = 1 := by
      rw [total_cons, total_generated_of_sends hkeeps.sends]
      rfl
    refine ⟨⟨UInt32.le_iff_toNat_le.mpr ?_, hcontinues⟩, hone ▸ hnat⟩
    omega
  · rw [total_generated_of_sends hsends, Nat.add_zero, hcount]
    exact ⟨⟨hcount ▸ hs.le_limit, hcontinues⟩, rfl⟩

/-- A sender has written nothing so far: all the events of its batch are waiting. -/
structure Unwritten (s : Sender) : Prop where
  phase : s.phase = .selecting ∨ ∃ result, s.phase = .returned result
  events_le : s.batch.events ≤ s.eventCount.toNat

theorem unwritten_leave (hs : s.batch.events ≤ s.eventCount.toNat) :
    s.leave.1.Unwritten ∧ ∀ e ∈ s.leave.2, e.Unsent := by
  refine ⟨⟨.inr ⟨_, rfl⟩, hs⟩, ?_⟩
  show ∀ e ∈ s.dropBatch, e.Unsent
  rw [dropBatch]
  split
  · exact recordLocalDrop_unsent _
  · simp

theorem unwritten_endTick (hs : s.batch.events ≤ s.eventCount.toNat) :
    (s.endTick config).1.Unwritten ∧ ∀ e ∈ (s.endTick config).2, e.Unsent := by
  rw [endTick]
  split
  · exact unwritten_leave hs
  · exact ⟨⟨.inl rfl, hs⟩, by simp⟩

/-- One more event does not fill a batch that is larger than the limit. -/
theorem unwritten_append (now : Instant)
    (hlarge : (disconnectLimit config).toNat < config.scenario.fragmentation.eventsPerWrite)
    (hlimit : s.eventCount ≤ disconnectLimit config)
    (hs : s.batch.events ≤ s.eventCount.toNat) :
    (s.append config now).1.Unwritten ∧ ∀ e ∈ (s.append config now).2, e.Unsent := by
  rw [UInt32.le_iff_toNat_le] at hlimit
  rw [append]
  split
  · exact ⟨⟨.inr ⟨_, rfl⟩, hs⟩, recordLocalDrop_unsent _⟩
  · rw [if_neg (by omega)]
    exact unwritten_endTick hs

/-- **A sender whose batch is larger than its limit writes nothing**: the batch is never full. -/
theorem Unwritten.step (habrupt : config.scenario.abruptDisconnect.enabled = true)
    (hlarge : (disconnectLimit config).toNat < config.scenario.fragmentation.eventsPerWrite)
    (hframe : ∀ count, invalidKind config count ≠ some .oversizedFrame)
    (hs : s.Unwritten) (hwithin : s.Within config)
    (h : s.step P participant config w act = some (s', out)) :
    s'.Unwritten ∧ ∀ e ∈ out, e.Unsent := by
  obtain ⟨hwithin', hcount⟩ := hwithin.step habrupt h
  cases steps_of_step h with
  | tick utc id hselecting hdue hp =>
    obtain ⟨rfl, rfl⟩ := Prod.mk.inj hp
    have hjoins : s.isFrame config = false := decide_eq_false (hframe _)
    have hkeeps := s.keeps_dispatch P participant config w.now utc id
    have hone : total Effect.generated (.generate (s.eventId config id) ::
        (s.dispatch P participant config w.now utc id).2) = 1 := by
      rw [total_cons, total_generated_of_sends hkeeps.sends]
      rfl
    have hevents : (s.ticked P participant config w.now utc id).batch.events =
        s.batch.events + 1 := by
      simp [ticked, hjoins, push]
    have hheld : (s.ticked P participant config w.now utc id).batch.events ≤
        (s.ticked P participant config w.now utc id).eventCount.toNat := by
      rw [hevents, ← hkeeps.eventCount, hcount, hone]
      exact Nat.succ_le_succ hs.events_le
    have hdispatch : s.dispatch P participant config w.now utc id =
        (s.ticked P participant config w.now utc id).append config w.now := by
      rw [dispatch, if_neg (by simp [hjoins])]
    rw [hdispatch]
    obtain ⟨hunwritten, heffects⟩ := unwritten_append w.now hlarge
      (hkeeps.eventCount ▸ hwithin'.le_limit) hheld
    exact ⟨hunwritten, List.forall_mem_cons.mpr ⟨trivial, heffects⟩⟩
  | stopped hselecting hstop hp =>
    obtain ⟨rfl, rfl⟩ := Prod.mk.inj hp
    exact unwritten_leave hs.events_le
  | deadline hselecting hdue hp =>
    obtain ⟨rfl, rfl⟩ := Prod.mk.inj hp
    exact unwritten_leave hs.events_le
  | flush _ _ _ _ _ hphase | frame _ _ _ _ hphase | publish _ hphase =>
    rcases hs.phase with hselecting | ⟨result, hreturned⟩
    · cases hphase.symm.trans hselecting
    · cases hphase.symm.trans hreturned

end Sender

/-! ## A task -/

/-- The events that a participant may still make on its connection. -/
def Participant.remaining (config : AppConfig) (p : Participant) : ℕ :=
  if p.mayStart then (disconnectLimit config).toNat
  else p.sender?.elim 0 fun s => (disconnectLimit config).toNat - s.eventCount.toNat

/-- A task has made no more events than its connections allow. -/
structure Task.Limited (config : AppConfig) (task : Task) : Prop where
  within : ∀ s, task.state.sender? = some s → s.Within config
  budget : total Effect.generated task.log + task.state.remaining config ≤
    (disconnectLimit config).toNat * total (Effect.added .connectionSuccesses) task.log

namespace Participant

variable {p p' : Participant} {act : ParticipantAct}

/-- Who has a sender may make what the sender may. -/
theorem remaining_of_sender {s : Sender} (hs : p.sender? = some s) :
    p.remaining config = (disconnectLimit config).toNat - s.eventCount.toNat := by
  have hmay : p.mayStart = false := by
    by_contra hmay
    rw [sender?_of_mayStart (Bool.not_eq_false _ ▸ hmay)] at hs
    cases hs
  rw [remaining, hmay, hs]
  rfl

theorem remaining_le (p : Participant) (config : AppConfig) :
    p.remaining config ≤ (disconnectLimit config).toNat := by
  rw [remaining]
  split
  · exact Nat.le_refl _
  · cases p.sender? with
    | none => exact Nat.zero_le _
    | some s => exact Nat.sub_le _ _

/-- Who is not about to start a sender may make what its sender may. -/
theorem remaining_of_mayStart_eq_false (hmay : p.mayStart = false) :
    p.remaining config =
      p.sender?.elim 0 fun s => (disconnectLimit config).toNat - s.eventCount.toNat := by
  rw [remaining, if_neg (by simp [hmay])]

/-- Who keeps its sender and connects no more may make no more than before. -/
theorem remaining_le_of_same (hsame : p'.sender? = p.sender?)
    (hmay : p'.mayStart = true → p.mayStart = true) :
    p'.remaining config ≤ p.remaining config := by
  by_cases hstate : p'.mayStart = true
  · rw [remaining, remaining, if_pos hstate, if_pos (hmay hstate)]
  · rw [remaining, if_neg hstate, hsame]
    cases hs : p.sender? with
    | none => exact Nat.zero_le _
    | some s => exact (remaining_of_sender hs).ge

/-- A new connection is a success, and no sender is left of the one before. -/
theorem of_connected {handshakeTime : Duration}
    (h : p.step P participant config w (.connected handshakeTime) = some (p', out)) :
    p.remaining config = 0 ∧ total (Effect.added .connectionSuccesses) out = 1 := by
  have hdialing : p.phase = .dialing → p.remaining config = 0 := by
    intro hphase
    simp [remaining, mayStart, sender?, session?, hphase]
  cases steps_of_step h with
  | connect _ hphase => exact ⟨hdialing hphase, by simp [countConnected, Effect.added]⟩

end Participant

/-- **A connection adds as many events as its limit** to what a task may make, and each event takes
one of them. -/
theorem Task.Limited.step (habrupt : config.scenario.abruptDisconnect.enabled = true) {task : Task}
    {act : ParticipantAct} {state : Participant} (htask : task.Limited config)
    (h : task.state.step P task.participant config w act = some (state, out)) :
    Task.Limited config { task with state, log := task.log ++ out } := by
  obtain ⟨participant, p, log⟩ := task
  obtain ⟨hwithin, hbudget⟩ := htask
  simp only at hwithin hbudget h
  have hgrows : (disconnectLimit config).toNat * total (Effect.added .connectionSuccesses) log ≤
      (disconnectLimit config).toNat *
        total (Effect.added .connectionSuccesses) (log ++ out) := by
    rw [total_append]
    exact Nat.mul_le_mul_left _ (Nat.le_add_right _ _)
  rcases Participant.sender_cases h with ⟨s, s', a, rfl, hs, hstep, hs', hmay'⟩ |
    ⟨interval, -, hmay, -, -, -, hs', -, rfl⟩ | ⟨s, -, hs, hs', hmay', rfl⟩ |
    ⟨-, hsame, hmay, hquiet⟩
  · obtain ⟨hwithin', hcount⟩ := (hwithin s hs).step habrupt hstep
    have hle := UInt32.le_iff_toNat_le.mp hwithin'.le_limit
    rw [Participant.remaining_of_sender hs] at hbudget
    have hremaining : state.remaining config ≤
        (disconnectLimit config).toNat - s'.eventCount.toNat := by
      rw [Participant.remaining_of_mayStart_eq_false hmay', hs', Session.alive?]
      split
      · exact Nat.zero_le _
      · exact Nat.le_refl _
    refine ⟨fun alive hliving => ?_, hgrows.trans' ?_⟩
    · obtain rfl := Session.eq_of_alive? (hs'.symm.trans hliving)
      exact hwithin'
    · simp only [total_append]
      omega
  · -- a sender that starts may make what its connection allows
    have hremaining : state.remaining config = p.remaining config := by
      rw [Participant.remaining_of_sender hs', Participant.remaining, hmay]
      rfl
    refine ⟨fun alive hliving => ?_, ?_⟩
    · obtain rfl := Option.some.inj (hs'.symm.trans hliving)
      exact Sender.within_new _ _
    · simpa only [List.append_nil, hremaining] using hbudget
  · -- a sender that is dropped makes nothing any more
    have hremaining : state.remaining config = 0 := by
      rw [Participant.remaining_of_mayStart_eq_false hmay', hs']
      rfl
    refine ⟨fun alive hliving => (by cases hs'.symm.trans hliving), ?_⟩
    simp only [List.append_nil, hremaining]
    omega
  · have hgenerated : total Effect.generated (log ++ out) = total Effect.generated log := by
      rw [total_append, (total_eq_zero_of_quiet hquiet).1, Nat.add_zero]
    refine ⟨fun alive hliving => hwithin alive (hsame ▸ hliving), ?_⟩
    simp only [hgenerated]
    by_cases hconnected : ∃ handshakeTime, act = .connected handshakeTime
    · obtain ⟨handshakeTime, rfl⟩ := hconnected
      obtain ⟨-, hone⟩ := Participant.of_connected h
      have hlimit := state.remaining_le config
      rw [total_append, hone, Nat.mul_succ]
      omega
    · -- nobody connects, so nothing is added
      have hremaining : state.remaining config ≤ p.remaining config :=
        Participant.remaining_le_of_same hsame fun hstate => (hmay hstate).resolve_right hconnected
      omega

/-- A task that has written nothing so far. -/
structure Task.Silent (config : AppConfig) (task : Task) : Prop where
  limited : task.Limited config
  unwritten : ∀ s, task.state.sender? = some s → s.Unwritten
  unsent : ∀ e ∈ task.log, e.Unsent

theorem Task.Silent.step (habrupt : config.scenario.abruptDisconnect.enabled = true)
    (hlarge : (disconnectLimit config).toNat < config.scenario.fragmentation.eventsPerWrite)
    (hframe : ∀ count, invalidKind config count ≠ some .oversizedFrame) {task : Task}
    {act : ParticipantAct} {state : Participant} (htask : task.Silent config)
    (h : task.state.step P task.participant config w act = some (state, out)) :
    Task.Silent config { task with state, log := task.log ++ out } := by
  obtain ⟨hlimited, hunwritten, hunsent⟩ := htask
  have hlog : (∀ e ∈ out, e.Unsent) → ∀ e ∈ task.log ++ out, e.Unsent :=
    fun hout => List.forall_mem_append.mpr ⟨hunsent, hout⟩
  rcases Participant.sender_cases h with ⟨s, s', a, rfl, hs, hstep, hs', -⟩ |
    ⟨interval, -, hmay, -, -, -, hs', -, rfl⟩ | ⟨s, -, hs, hs', -, rfl⟩ | ⟨-, hsame, -, hquiet⟩
  · obtain ⟨hunwritten', hout⟩ :=
      (hunwritten s hs).step habrupt hlarge hframe (hlimited.within s hs) hstep
    refine ⟨hlimited.step habrupt h, fun alive hliving => ?_, hlog hout⟩
    obtain rfl := Session.eq_of_alive? (hs'.symm.trans hliving)
    exact hunwritten'
  · refine ⟨hlimited.step habrupt h, fun alive hliving => ?_, hlog (by simp)⟩
    obtain rfl := Option.some.inj (hs'.symm.trans hliving)
    exact ⟨.inl rfl, Nat.zero_le _⟩
  · exact ⟨hlimited.step habrupt h, fun alive hliving => (by cases hs'.symm.trans hliving),
      hlog (by simp)⟩
  · exact ⟨hlimited.step habrupt h, fun alive hliving => hunwritten alive (hsame ▸ hliving),
      hlog fun e he => (hquiet e he).unsent⟩

/-! ## A run -/

namespace Run

variable {r r₀ : Run} {acts : List RunAct}

theorem limited_invariant (habrupt : config.scenario.abruptDisconnect.enabled = true) :
    TaskInvariant P config fun _ task => task.Limited config where
  spawn _ _ _ _ := ⟨fun _ hs => (by cases hs), Nat.zero_le _⟩
  later _ _ _ _ _ htask := htask
  step _ _ _ _ _ htask h := htask.step habrupt h

theorem silent_invariant (habrupt : config.scenario.abruptDisconnect.enabled = true)
    (hlarge : (disconnectLimit config).toNat < config.scenario.fragmentation.eventsPerWrite)
    (hframe : ∀ count, invalidKind config count ≠ some .oversizedFrame) :
    TaskInvariant P config fun _ task => task.Silent config where
  spawn _ _ _ _ := ⟨⟨fun _ hs => (by cases hs), Nat.zero_le _⟩, fun _ hs => (by cases hs), by simp⟩
  later _ _ _ _ _ htask := htask
  step _ _ _ _ _ htask h := htask.step habrupt hlarge hframe h

/-- Where nothing is sent, nothing is counted as sent. -/
theorem sent_eq_zero (hlinked : ∀ task ∈ r.tasks, Linked config task) (hr : r.Counted)
    (hunsent : ∀ task ∈ r.tasks, ∀ e ∈ task.log, e.Unsent) :
    r.world.counters .sentMessages = 0 := by
  refine counter_eq_zero hlinked hr (by simp) fun task htask e he => ?_
  have hnone := hunsent task htask e he
  cases e with
  | add counter n => exact if_neg hnone
  | _ => rfl

/-- **The events of a run with abrupt disconnects**: a task makes at most as many events for each of
its connections as the limit says, so the metrics count at most that many for each success. When a
batch is larger than the limit, and no oversized frame comes before it, nothing is sent: no byte is
written, and no event is published. -/
theorem disconnects_bound {started : ℤ} {shuffle : ℕ → List Duration → List Duration}
    {options : SafetyOptions} {stop : Bool}
    (habrupt : config.scenario.abruptDisconnect.enabled = true)
    (hstart : start config started shuffle options stop = .ok r₀)
    (h : (machine P config).exec r₀ acts = some r) :
    (∀ task ∈ r.tasks, total Effect.generated task.log ≤ (disconnectLimit config).toNat *
      total (Effect.added .connectionSuccesses) task.log) ∧
    r.world.counters .sentMessages + r.world.counters .droppedMessages ≤
      (disconnectLimit config).toNat * r.world.counters .connectionSuccesses ∧
    ((disconnectLimit config).toNat < config.scenario.fragmentation.eventsPerWrite →
      (∀ count, invalidKind config count ≠ some .oversizedFrame) →
      r.world.counters .sentMessages = 0 ∧
        ∀ task ∈ r.tasks, ∀ e ∈ task.log, (∀ bytes, e ≠ .write bytes) ∧
          ∀ id sender sentAt, e ≠ .publish id sender sentAt) := by
  have hlinked : ∀ task ∈ r.tasks, Linked config task := linked_invariant.run hstart h
  have hcounted := counted_of_exec hstart h
  have hgenerated : ∀ task ∈ r.tasks, total Effect.generated task.log ≤
      (disconnectLimit config).toNat *
        total (Effect.added .connectionSuccesses) task.log := fun task htask =>
    (Nat.le_add_right _ _).trans ((limited_invariant habrupt).run hstart h task htask).budget
  refine ⟨hgenerated, ?_, fun hlarge hframe => ⟨?_, fun task htask e he => ?_⟩⟩
  · calc r.world.counters .sentMessages + r.world.counters .droppedMessages
        ≤ sumOver Effect.generated r.logs :=
          counted_le_generated (books_invariant.run hstart h) hlinked hcounted
      _ ≤ (r.logs.map fun log => (disconnectLimit config).toNat *
            total (Effect.added .connectionSuccesses) log).sum := by
          apply List.sum_le_sum
          intro log hlog
          obtain ⟨task, htask, rfl⟩ := List.mem_map.mp hlog
          exact hgenerated task htask
      _ = (disconnectLimit config).toNat * r.world.counters .connectionSuccesses := by
          rw [List.sum_map_mul_left, counters_eq_sumOver hlinked hcounted (by simp)]
          rfl
  · exact sent_eq_zero hlinked hcounted fun task htask =>
      ((silent_invariant habrupt hlarge hframe).run hstart h task htask).unsent
  · have hunsent :=
      ((silent_invariant habrupt hlarge hframe).run hstart h task htask).unsent e he
    refine ⟨fun bytes heq => ?_, fun id sender sentAt heq => ?_⟩
    · subst heq
      exact hunsent
    · subst heq
      exact hunsent

/-! ## A batch that is never full -/

/-- A sender that disconnects after one event and writes two at a time. -/
def hasty : AppConfig where
  authorization := { acknowledged := true }
  participants := [{ id := "sender", role := .sendOnly }]
  scenario :=
    { fragmentation := { eventsPerWrite := 2 }
      abruptDisconnect := { enabled := true, afterEvents := 1 }
      invalid := { enabled := true, kind := some .malformedXml, maxEvents := some 1 } }

/-- The sender makes its event and leaves. -/
def leavingEarly : List RunAct :=
  [.task 0 .start, .task 0 .delayOver, .task 0 .enterLoop, .task 0 (.connected 0),
    .task 0 .sampled, .task 0 (.session (.barrier .check)), .elapse (Duration.fromSecs 60),
    .task 0 (.session (.sender (.tick 0 7))), .task 0 .sessionOver]

/-- The only event of a connection is dropped. -/
theorem disconnects_bound_dropped :
    ∃ r, (machine Reference.platform hasty).exec (spawn hasty [0] false) leavingEarly = some r ∧
      r.world.counters .droppedMessages = 1 ∧ r.world.counters .sentMessages = 0 := by
  have hstart : start hasty 0 (fun _ => id) {} false = .ok (spawn hasty [0] false) := rfl
  have hframe : ∀ count, invalidKind hasty count ≠ some .oversizedFrame := by
    intro count
    rw [invalidKind]
    split <;> simp [hasty]
  obtain ⟨r, hexec, hdropped⟩ := Option.map_eq_some_iff.mp (show ((machine Reference.platform
    hasty).exec (spawn hasty [0] false) leavingEarly).map
      (fun r => r.world.counters .droppedMessages) = some 1 by decide +kernel)
  exact ⟨r, hexec, hdropped,
    ((disconnects_bound rfl hstart hexec).2.2 (by decide) hframe).1⟩

end Run

end TakBench
