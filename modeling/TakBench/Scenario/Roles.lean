import TakBench.Scenario.Chronicle
import TakBench.Scenario.Counters
import TakBench.Scenario.Readiness
import TakBench.Scenario.Receipts

/-!
# Roles

A participant that only receives has no sender, and one that only sends has no reader, on any of its
connections. So the ledger knows an event only under the name of a participant that sends, and a
receipt only of a participant that receives; and where nobody sends, or nobody receives, nothing is
counted as sent or dropped, or as received.

## Main definitions

* `Session.Suits`: a session has no part that the role excludes
* `CorrelationLedger.Sorted`: the names in a ledger are those of suitable participants

## Main results

* `Session.Suits.step`, `Run.ledger_sorted_step`: what a step preserves
* `Run.roles_respected`: the roles in every run
-/

namespace TakBench

variable {P : Platform} {participant : ParticipantConfig} {config : AppConfig} {w : World}
  {out : List Effect}

theorem Effect.Quiet.added {e : Effect} (h : e.Quiet) :
    e.added .sentMessages = 0 ∧ e.added .droppedMessages = 0 := by
  cases e with
  | add counter n => exact ⟨if_neg h.1, if_neg h.2⟩
  | _ => exact ⟨rfl, rfl⟩

theorem Effect.Mute.added {e : Effect} (h : e.Mute) :
    e.added .receivedMessages = 0 ∧ e.added .duplicateMessages = 0 := by
  cases e with
  | add counter n => exact ⟨if_neg h.1, if_neg h.2⟩
  | _ => exact ⟨rfl, rfl⟩

/-! ## A session -/

namespace Session

variable {session session' : Session} {act : SessionAct}

/-- A session has no part that the role excludes. -/
structure Suits (participant : ParticipantConfig) (session : Session) : Prop where
  receives : participant.role = .receiveOnly →
    session.sender? = none ∧ session.mayStart = false
  sends : participant.role = .sendOnly → session.reader? = none

theorem afterReader_mayStart_eq_false (reader : Reader) :
    (afterReader reader).mayStart = false := by
  rw [afterReader]
  split <;> rfl

theorem suits_returned (result : Except Failure Unit) : (returned result).Suits participant :=
  ⟨fun _ => ⟨rfl, rfl⟩, fun _ => rfl⟩

theorem suits_enter : (enter participant config w).Suits participant := by
  constructor
  · intro hrole
    simp only [enter, hrole]
    exact ⟨afterReader_sender? _, afterReader_mayStart_eq_false _⟩
  · intro hrole
    simp only [enter, hrole]
    rfl

theorem suits_start : (start participant config w).Suits participant := by
  rw [start]
  split
  · next hslow =>
    split
    · exact suits_returned _
    · exact ⟨fun hrole => absurd hrole hslow.2, fun _ => rfl⟩
  · exact suits_enter

/-- Without a reader, the barrier leaves none. -/
theorem afterBarrier_reader? (barrier : BarrierPhase) :
    (afterBarrier config w none barrier).reader? = none := by
  unfold afterBarrier
  split
  · rw [openSender]
    split <;> rfl
  · rfl
  · rfl

/-- **A session keeps to its role.** -/
theorem Suits.step (hs : session.Suits participant)
    (h : session.step P participant config w act = some (session', out)) :
    session'.Suits participant := by
  constructor
  · -- there is no sender to take a step, and none can start
    intro hrole
    obtain ⟨hnone, hmay⟩ := hs.receives hrole
    rcases step_cases h with ⟨s, reader, a, s', rfl, -⟩ | ⟨⟨hstarts, -⟩, -⟩ |
      ⟨⟨s, reader, result, rfl, -⟩, -⟩ | ⟨-, hsame, hmay', -⟩
    · cases hnone
    · cases hmay.symm.trans hstarts
    · cases hnone
    · refine ⟨hsame.trans hnone, ?_⟩
      by_contra hstate
      exact Bool.false_ne_true (hmay.symm.trans (hmay' (Bool.not_eq_false _ ▸ hstate)))
  · -- what a reader would have to be there for does not happen
    intro hrole
    have hnone := hs.sends hrole
    cases steps_of_step h with
    | enter => exact suits_enter.sends hrole
    | delayCut | readerJoined => rfl
    | readerDone => cases hnone
    | barrier barrier barrier' reader =>
      obtain rfl : reader = none := hnone
      exact afterBarrier_reader? _
    | sender sender sender' reader =>
      obtain rfl : reader = none := hnone
      rw [afterSender]
      split <;> rfl
    | reader session reader reader' a out halive => cases hnone.symm.trans halive

/-- What a session does suits its role. -/
theorem Suits.effects (hs : session.Suits participant)
    (h : session.step P participant config w act = some (session', out)) :
    (participant.role = .receiveOnly → ∀ e ∈ out, e.Quiet) ∧
      (participant.role = .sendOnly → ∀ e ∈ out, e.Mute) := by
  rcases step_effects h with ⟨-, rfl⟩ | ⟨s, s', a, hsender, -, hstep⟩ |
    ⟨reader, reader', a, hreader, -, hstep⟩
  · simp
  · refine ⟨fun hrole => ?_, fun _ => ?_⟩
    · cases (hs.receives hrole).1.symm.trans hsender
    · exact (Sender.mute_step hstep).effects
  · refine ⟨fun _ => Reader.step_quiet hstep, fun hrole => ?_⟩
    cases (hs.sends hrole).symm.trans hreader

end Session

/-! ## A participant -/

namespace Participant

variable {p p' : Participant} {act : ParticipantAct}

/-- The session of a participant keeps to its role. -/
def Suits (participant : ParticipantConfig) (p : Participant) : Prop :=
  ∀ session, p.phase = .connected session → session.Suits participant

theorem Suits.step (hp : p.Suits participant)
    (h : p.step P participant config w act = some (p', out)) : p'.Suits participant := by
  intro session hphase'
  cases steps_of_step h with
  | openSession | notified =>
    obtain rfl := ParticipantPhase.connected.inj hphase'
    exact Session.suits_start
  | session session session' a out hphase hsession =>
    obtain rfl := ParticipantPhase.connected.inj hphase'
    exact (hp session hphase).step hsession
  | enter =>
    rw [Participant.enter] at hphase'
    split at hphase' <;> cases hphase'
  | sessionOver result =>
    cases result with
    | ok _ => cases hphase'
    | error failure =>
      simp only [goto, afterSession] at hphase'
      split at hphase' <;> cases hphase'
  | retry =>
    rw [Participant.retry] at hphase'
    split at hphase'
    · cases hphase'
    · simp only [backOff] at hphase'
      split at hphase'
      · cases hphase'
      · split at hphase' <;> cases hphase'
  | _ => cases hphase'

/-- What a participant does suits its role. -/
theorem Suits.effects (hp : p.Suits participant)
    (h : p.step P participant config w act = some (p', out)) :
    (participant.role = .receiveOnly → ∀ e ∈ out, e.Quiet) ∧
      (participant.role = .sendOnly → ∀ e ∈ out, e.Mute) := by
  rcases step_cases h with ⟨session, a, session', hphase, rfl, hsession, rfl⟩ |
    ⟨hact, -, -, -, hconnection⟩
  · exact (hp session hphase).effects hsession
  · exact ⟨fun _ e he => (hconnection e he).quiet, fun _ => (mute_connection hact h).2.2⟩

/-- A participant records events under its name. -/
theorem observe_step (h : p.step P participant config w act = some (p', out))
    {receiver : String} {id : Uuid} (he : .observe receiver id ∈ out) :
    receiver = participant.id := by
  rcases step_cases h with ⟨session, a, session', hphase, rfl, hsession, rfl⟩ |
    ⟨-, -, -, -, hconnection⟩
  · rcases Session.step_effects hsession with ⟨-, rfl⟩ | ⟨s, s', a, -, -, hstep⟩ |
      ⟨reader, reader', a, -, -, hstep⟩
    · cases he
    · rcases Sender.step_cases hstep with ⟨utc, uuid, rfl, -, effects, rfl, hkeeps⟩ | ⟨-, hidles⟩
      · exact (hkeeps.sends _ ((List.mem_cons.mp he).resolve_left (by simp))).elim
      · exact (hidles.2.2.2.2 _ he).elim
    · exact (Reader.step_observe hstep he).1
  · exact (hconnection _ he).elim

end Participant

/-! ## The ledger -/

theorem World.lookup_sent_applyAll {effects : List Effect} {id : Uuid} {name : String}
    {sentAt : Instant}
    (h : (w.applyAll effects).ledger.sent.lookup id = some (name, sentAt)) :
    w.ledger.sent.lookup id = some (name, sentAt) ∨ .publish id name sentAt ∈ effects := by
  induction effects generalizing w with
  | nil => exact .inl h
  | cons e effects ih =>
    rw [applyAll_cons] at h
    rcases ih h with hbefore | hmem
    · cases e with
      | publish id' name' sentAt' =>
        by_cases heq : id = id'
        · subst heq
          obtain ⟨rfl, rfl⟩ : name' = name ∧ sentAt' = sentAt := by
            simpa [apply] using hbefore
          exact .inr List.mem_cons_self
        · exact .inl (by simpa [apply, AList.lookup_insert_ne heq] using hbefore)
      | _ => exact .inl hbefore
    · exact .inr (List.mem_cons_of_mem _ hmem)

/-- The names that a ledger knows are those of participants with a suitable role. -/
structure CorrelationLedger.Sorted (config : AppConfig) (state : CorrelationLedger) : Prop where
  sent : ∀ id name sentAt, state.sent.lookup id = some (name, sentAt) →
    ∃ participant ∈ participants config, participant.id = name ∧ participant.role ≠ .receiveOnly
  seen : ∀ receiver id, state.isSeen receiver id = true →
    ∃ participant ∈ participants config, participant.id = receiver ∧
      participant.role ≠ .sendOnly

/-! ## A run -/

/-- A task keeps to the role of its participant. -/
structure Task.Suits (config : AppConfig) (task : Task) : Prop where
  configured : task.participant ∈ participants config
  suits : task.state.Suits task.participant
  receives : task.participant.role = .receiveOnly → ∀ e ∈ task.log, e.Quiet
  sends : task.participant.role = .sendOnly → ∀ e ∈ task.log, e.Mute

namespace Run

variable {r r' r₀ : Run} {act : RunAct} {acts : List RunAct}

theorem suits_invariant : TaskInvariant P config fun _ task => task.Suits config where
  spawn _ _ _ hmem := ⟨hmem, fun _ hphase => (by cases hphase), by simp, by simp⟩
  later _ _ _ _ _ htask := htask
  step w task act state effects htask hstep := by
    obtain ⟨hquiet, hmute⟩ := htask.suits.effects hstep
    exact ⟨htask.configured, htask.suits.step hstep,
      fun hrole => List.forall_mem_append.mpr ⟨htask.receives hrole, hquiet hrole⟩,
      fun hrole => List.forall_mem_append.mpr ⟨htask.sends hrole, hmute hrole⟩⟩

/-- The tasks and the ledger respect the roles. -/
structure Sorted (config : AppConfig) (r : Run) : Prop where
  tasks : ∀ task ∈ r.tasks, task.Suits config
  ledger : r.world.ledger.Sorted config

theorem ledger_sorted_step (hr : r.Sorted config) (h : r.step P config act = some r') :
    r'.world.ledger.Sorted config := by
  rcases step_cases h with ⟨i, a, task, state, effects, rfl, hget, hstep, rfl⟩ | ⟨-, hidle⟩
  · have htask := hr.tasks task (List.mem_of_getElem? hget)
    obtain ⟨hquiet, hmute⟩ := htask.suits.effects hstep
    constructor
    · intro id name sentAt hlookup
      rcases World.lookup_sent_applyAll hlookup with hbefore | hpublish
      · exact hr.ledger.sent id name sentAt hbefore
      · -- who publishes does not only receive
        obtain ⟨rfl, -⟩ := Participant.publish_step hstep hpublish
        exact ⟨_, htask.configured, rfl, fun hrole => hquiet hrole _ hpublish⟩
    · intro receiver id hseen
      rcases World.isSeen_applyAll.mp hseen with hbefore | hobserve
      · exact hr.ledger.seen receiver id hbefore
      · obtain rfl := Participant.observe_step hstep hobserve
        exact ⟨_, htask.configured, rfl, fun hrole => hmute hrole _ hobserve⟩
  · -- the main task and the clock leave the ledger as it is
    rw [hidle.ledger]
    exact hr.ledger

theorem Sorted.step (hr : r.Sorted config) (h : r.step P config act = some r') :
    r'.Sorted config where
  tasks := suits_invariant.run_step hr.tasks h
  ledger := ledger_sorted_step hr h

theorem sorted_spawn (delays : List Duration) (stop : Bool) :
    (spawn config delays stop).Sorted config where
  tasks := by
    rintro ⟨participant, state, log⟩ htask
    obtain ⟨hmem, hlog, delay, hstate⟩ := exists_of_mem_spawn htask
    simp only at hmem hlog hstate
    subst hlog hstate
    exact ⟨hmem, fun _ hphase => (by cases hphase), by simp, by simp⟩
  ledger := ⟨fun id name sentAt hlookup => (by cases hlookup), fun receiver id hseen =>
    (by cases hseen)⟩

/-- **The roles in every run**: a participant that only receives makes, writes, publishes and counts
no event, and one that only sends counts and records none. So an event that is known as sent is one
of a participant that sends, and one that is seen was seen by a participant that receives. Where all
only receive, nothing is counted as sent or dropped, and where all only send, nothing as received or
as a duplicate. -/
theorem roles_respected {started : ℤ} {shuffle : ℕ → List Duration → List Duration}
    {options : SafetyOptions} {stop : Bool}
    (hstart : start config started shuffle options stop = .ok r₀)
    (h : (machine P config).exec r₀ acts = some r) :
    (∀ task ∈ r.tasks,
      (task.participant.role = .receiveOnly → ∀ e ∈ task.log, e.Quiet) ∧
      (task.participant.role = .sendOnly → ∀ e ∈ task.log, e.Mute)) ∧
    r.world.ledger.Sorted config ∧
    ((∀ participant ∈ participants config, participant.role = .receiveOnly) →
      r.world.counters .sentMessages = 0 ∧ r.world.counters .droppedMessages = 0) ∧
    ((∀ participant ∈ participants config, participant.role = .sendOnly) →
      r.world.counters .receivedMessages = 0 ∧ r.world.counters .duplicateMessages = 0) := by
  have hlinked : ∀ task ∈ r.tasks, Linked config task := linked_invariant.run hstart h
  have hcounted := counted_of_exec hstart h
  obtain ⟨-, delays, rfl⟩ := exists_of_mem_start hstart
  have hsorted : r.Sorted config := Machine.exec_invariant (m := machine P config)
    (fun _ _ _ hr hstep => hr.step hstep) (sorted_spawn delays stop) h
  -- a counter that no effect adds to stays at zero
  have hzero : ∀ counter, counter ≠ .activeConnections →
      (∀ task ∈ r.tasks, ∀ e ∈ task.log, e.added counter = 0) → r.world.counters counter = 0 :=
    fun _ hcounter hnone => counter_eq_zero hlinked hcounted hcounter hnone
  refine ⟨fun task htask => ⟨(hsorted.tasks task htask).receives, (hsorted.tasks task htask).sends⟩,
    hsorted.ledger, fun hroles => ?_, fun hroles => ?_⟩
  · have hquiet : ∀ task ∈ r.tasks, ∀ e ∈ task.log, e.Quiet := fun task htask =>
      (hsorted.tasks task htask).receives (hroles _ (hsorted.tasks task htask).configured)
    exact ⟨hzero _ (by simp) fun task htask e he => (hquiet task htask e he).added.1,
      hzero _ (by simp) fun task htask e he => (hquiet task htask e he).added.2⟩
  · have hmute : ∀ task ∈ r.tasks, ∀ e ∈ task.log, e.Mute := fun task htask =>
      (hsorted.tasks task htask).sends (hroles _ (hsorted.tasks task htask).configured)
    exact ⟨hzero _ (by simp) fun task htask e he => (hmute task htask e he).added.1,
      hzero _ (by simp) fun task htask e he => (hmute task htask e he).added.2⟩

/-- A run in which a participant that only sends has sent. -/
theorem roles_respected_gated :
    ∃ r, (machine Reference.platform Gated.gated).exec (spawn Gated.gated [0] false)
        Gated.sending = some r ∧
      r.world.ledger.Sorted Gated.gated ∧ r.world.counters .receivedMessages = 0 := by
  have hruns : ((machine Reference.platform Gated.gated).exec (spawn Gated.gated [0] false)
      Gated.sending).isSome = true := by
    decide +kernel
  obtain ⟨r, hexec⟩ := Option.isSome_iff_exists.mp hruns
  have hroles : ∀ participant ∈ participants Gated.gated, participant.role = .sendOnly := by decide
  obtain ⟨-, hsorted, -, hsends⟩ := roles_respected Gated.start_gated hexec
  exact ⟨r, hexec, hsorted, (hsends hroles).1⟩

end Run

end TakBench
