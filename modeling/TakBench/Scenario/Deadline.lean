import TakBench.Names
import TakBench.Scenario.Readiness

/-!
# The deadlines of the barrier and of the run

A waiter of the readiness barrier watches the deadline of the barrier and the stop signal, and not
the deadline of the run. Everywhere else a participant watches the deadline of the run. So the run
is bounded by its deadline exactly when the barrier is.

Time passes here only while nothing is due: a step that waits for nothing from outside is made
before time goes on.

## Main definitions

* `RunAct.isInternal`, `Run.Prompt`: time passes only while no internal step can be made
* `Run.AtBarrier`: somebody waits at the barrier
* `Run.Bounded`, `Run.Stuck`: the two invariants

## Main results

* `Run.Bounded.step`: after the deadline nobody comes to the barrier
* `Run.Stuck.exists_later`: a barrier that stays closed is waited for up to its own deadline
* `Run.barrier_bounded_iff`: the deadline of the run bounds the barrier exactly when it is not
  before the deadline of the barrier
-/

namespace TakBench

variable {P : Platform} {config : AppConfig}

/-! ## Internal steps -/

/-- Does a step of a sender wait for nothing from outside? -/
def SenderAct.isInternal : SenderAct → Bool
  | .write .timedOut => true
  | .write _ => false
  | _ => true

def ReaderAct.isInternal : ReaderAct → Bool
  | .received _ | .peerClosed | .readFailed => false
  | _ => true

def SessionAct.isInternal : SessionAct → Bool
  | .sender act => act.isInternal
  | .reader act => act.isInternal
  | _ => true

def ParticipantAct.isInternal : ParticipantAct → Bool
  | .connected _ | .connectFailed _ _ => false
  | .session act => act.isInternal
  | _ => true

def RunAct.isInternal : RunAct → Bool
  | .elapse _ | .stop => false
  | .task _ act => act.isInternal
  | _ => true

namespace Run

/-- A run at a later time. -/
def later (r : Run) (d : Duration) : Run :=
  { r with world := { r.world with now := r.world.now + d } }

/-- Time passes only while no internal step can be made. -/
def Prompt (P : Platform) (config : AppConfig) (r : Run) : RunAct → Prop
  | .elapse d => ∀ d' < d, ∀ act, act.isInternal = true → (r.later d').step P config act = none
  | _ => True

end Run

/-! ## Who waits -/

/-- Has a waiter left the barrier? -/
def BarrierPhase.isReturned : BarrierPhase → Bool
  | .returned _ => true
  | _ => false

/-- A waiter at the barrier can go on when its deadline has passed. -/
theorem BarrierPhase.exists_step {w : World} {barrier : BarrierPhase}
    (h : barrier.isReturned = false) (hdue : barrierDeadline config ≤ w.now) :
    ∃ act barrier', barrier.step config w act = some barrier' := by
  cases barrier with
  | checking => exact ⟨.check, _, rfl⟩
  | unarmed => exact ⟨.arm, _, rfl⟩
  | armed seen => exact ⟨.deadline, .returned .timedOut, if_pos hdue⟩
  | returned result => cases h

/-- The waiter of a session. -/
def Session.barrier? : Session → Option BarrierPhase
  | .waiting barrier _ => some barrier
  | _ => none

/-- The waiter of a participant that holds an open connection. -/
def Participant.barrier? (p : Participant) : Option BarrierPhase :=
  p.session?.bind Session.barrier?

section Waiters

variable {participant : ParticipantConfig} {w : World} {out : List Effect} {barrier : BarrierPhase}

theorem Session.isReturned_enter (h : (enter participant config w).barrier? = some barrier) :
    barrier.isReturned = false := by
  unfold enter at h
  split at h
  · unfold afterReader at h
    split at h <;> cases h
  · obtain rfl := Option.some.inj h
    rfl
  · obtain rfl := Option.some.inj h
    rfl

theorem Session.isReturned_start (h : (start participant config w).barrier? = some barrier) :
    barrier.isReturned = false := by
  unfold start at h
  split at h
  · split at h <;> cases h
  · exact isReturned_enter h

theorem Session.isReturned_afterBarrier {reader : Option Reader} {barrier' : BarrierPhase}
    (h : (afterBarrier config w reader barrier').barrier? = some barrier) :
    barrier.isReturned = false := by
  unfold afterBarrier at h
  split at h
  · unfold openSender at h
    split at h <;> cases h
  · cases reader <;> cases h
  · next hready hother =>
    obtain rfl := Option.some.inj h
    cases barrier' with
    | returned result => exact absurd rfl (hother result)
    | _ => rfl

theorem Session.barrier?_close (result : Except Failure Unit) (reader : Option Reader) :
    (close result reader).barrier? = none := by
  cases reader <;> rfl

theorem Session.barrier?_afterSender (reader : Option Reader) (sender : Sender) :
    (afterSender reader sender).barrier? = none := by
  unfold afterSender
  split
  · exact barrier?_close _ _
  · rfl

theorem Session.barrier?_putReader (session : Session) (reader : Reader) :
    (session.putReader reader).barrier? = session.barrier? := by
  cases session with
  | receiving _ =>
    rw [putReader, afterReader]
    split <;> rfl
  | _ => rfl

/-- A session that waits has a waiter that has not left. -/
theorem Session.isReturned_step {session session' : Session} {act : SessionAct}
    (hsession : ∀ b, session.barrier? = some b → b.isReturned = false)
    (h : session.step P participant config w act = some (session', out))
    (hbarrier : session'.barrier? = some barrier) : barrier.isReturned = false := by
  cases steps_of_step h with
  | enter endsAt hdue => exact isReturned_enter hbarrier
  | barrier _ barrier' reader a => exact isReturned_afterBarrier hbarrier
  | sender sender sender' reader a out =>
    cases (barrier?_afterSender reader sender').symm.trans hbarrier
  | reader session reader reader' a out halive =>
    rw [barrier?_putReader] at hbarrier
    exact hsession barrier hbarrier
  | delayCut | readerDone | readerJoined => cases hbarrier

/-- What a step of a participant does to its waiter. -/
theorem Participant.isReturned_step {p p' : Participant} {act : ParticipantAct}
    (hp : ∀ b, p.barrier? = some b → b.isReturned = false)
    (h : p.step P participant config w act = some (p', out))
    (hbarrier : p'.barrier? = some barrier) : barrier.isReturned = false := by
  obtain ⟨session', hsession', hwaiter⟩ := Option.bind_eq_some_iff.mp hbarrier
  cases steps_of_step h with
  | session session session'' a out hphase hsession =>
    obtain rfl := Option.some.inj hsession'
    refine Session.isReturned_step (fun b hb => hp b ?_) hsession hwaiter
    rw [Participant.barrier?, session?, hphase]
    exact hb
  | openSession | notified =>
    -- the session starts
    obtain rfl := Option.some.inj hsession'
    exact Session.isReturned_start hwaiter
  | sessionOver result hphase =>
    cases (session?_of_isBetween (isBetween_afterSession result)).symm.trans hsession'
  | enter endsAt hphase =>
    cases (session?_of_isBetween isBetween_enter).symm.trans hsession'
  | retry factor failure hphase =>
    cases (session?_of_isBetween (isBetween_retry failure factor)).symm.trans hsession'
  -- the other steps lead to no session
  | _ => cases hsession'

/-- Only the head of the loop leads to a dial, before the deadline of the run. -/
theorem Participant.lt_of_dialing {p p' : Participant} {act : ParticipantAct}
    (h : p.step P participant config w act = some (p', out)) (hphase : p'.phase = .dialing) :
    w.now < config.run.duration := by
  have hnot {p : Participant} (hphase : p.phase = .dialing) : ¬p.isBetween = true := by
    simp [isBetween, hphase]
  cases steps_of_step h with
  | dial _ _ hnow => exact hnow
  | sessionOver result => exact absurd (isBetween_afterSession result) (hnot hphase)
  | enter endsAt => exact absurd isBetween_enter (hnot hphase)
  | retry factor failure => exact absurd (isBetween_retry failure factor) (hnot hphase)
  | _ => cases hphase

/-- May a participant come to the barrier without another dial, or is it there? -/
def Participant.IsApproaching (p : Participant) : Prop := p.phase = .dialing ∨ p.mayStart = true

theorem Participant.isApproaching_of_barrier? {p : Participant} (h : p.barrier? = some barrier) :
    p.IsApproaching := by
  obtain ⟨phase, attempt, recoveryStarted⟩ := p
  right
  cases phase with
  | connected session =>
    cases session with
    | waiting b reader => rfl
    | _ => cases h
  | _ => cases h

/-- **After the deadline of the run nobody comes closer to the barrier.** -/
theorem Participant.not_isApproaching_step {p p' : Participant} {act : ParticipantAct}
    (hp : ¬ p.IsApproaching) (hdue : config.run.duration ≤ w.now)
    (h : p.step P participant config w act = some (p', out)) : ¬ p'.IsApproaching := by
  rintro (hdialing | hmay)
  · exact absurd hdue (Nat.not_le.mpr (lt_of_dialing h hdialing))
  · rcases sender_cases h with ⟨s, s', a, -, -, -, -, hmay'⟩ |
      ⟨interval, -, -, -, -, -, -, hmay', -⟩ | ⟨s, -, -, -, hmay', -⟩ | ⟨-, -, hold, -⟩
    · rw [hmay'] at hmay
      cases hmay
    · rw [hmay'] at hmay
      cases hmay
    · rw [hmay'] at hmay
      cases hmay
    · rcases hold hmay with hmay | ⟨handshakeTime, rfl⟩
      · exact hp (.inr hmay)
      · -- a connection is opened by a dial
        cases steps_of_step h with
        | connect _ hphase => exact hp (.inl hphase)

/-- A participant that is on its way to the barrier when both deadlines have passed can go on. -/
theorem Participant.exists_internal (participant : ParticipantConfig) {p : Participant}
    (hp : p.IsApproaching)
    (hwaiter : ∀ b, p.barrier? = some b → b.isReturned = false)
    (hdue : config.run.duration ≤ w.now) (hbarrier : barrierDeadline config ≤ w.now) :
    ∃ act, act.isInternal = true ∧ ∃ q, p.step P participant config w act = some q := by
  obtain ⟨phase, attempt, recoveryStarted⟩ := p
  cases phase with
  | dialing => exact ⟨.dialDeadline, rfl, _, if_pos hdue⟩
  | sampling sample => exact ⟨.sampled, rfl, exists_sampled P participant config w rfl⟩
  | marking => exact ⟨.marked, rfl, _, rfl⟩
  | notifying => exact ⟨.notified, rfl, _, rfl⟩
  | connected session =>
    cases session with
    | slowConnecting endsAt =>
      have hcut : (Session.slowConnecting endsAt).step P participant config w .delayCut =
          some (.returned (.ok ()), []) := if_pos (.inr hdue)
      exact ⟨.session .delayCut, rfl, _, by simp only [step, hcut, Option.map_some]; rfl⟩
    | waiting b reader =>
      obtain ⟨act, b', hb⟩ := BarrierPhase.exists_step (hwaiter b rfl) hbarrier
      have hwait : (Session.waiting b reader).step P participant config w (.barrier act) =
          some (Session.afterBarrier config w reader b', []) := by
        simp only [Session.step, hb, Option.map_some]
      exact ⟨.session (.barrier act), rfl, _, by simp only [step, hwait, Option.map_some]; rfl⟩
    | _ => rcases hp with hp | hp <;> cases hp
  | _ => rcases hp with hp | hp <;> cases hp

end Waiters

/-! ## The barrier within the deadline of the run -/

namespace Run

variable {r r' : Run} {act : RunAct} {acts : List RunAct}

/-- Does a participant with an open connection wait at the barrier, or the main task? -/
def AtBarrier (r : Run) : Prop :=
  (∃ task ∈ r.tasks, ∃ barrier, task.state.barrier? = some barrier) ∨
    ∃ barrier, r.main = .waiting barrier

/-- Those who wait have not left, and after the deadline of the run nobody waits. -/
structure Bounded (config : AppConfig) (r : Run) : Prop where
  waiter : ∀ task ∈ r.tasks, ∀ b, task.state.barrier? = some b → b.isReturned = false
  main : ∀ b, r.main = .waiting b → b.isReturned = false
  approaching : config.run.duration < r.world.now → ∀ task ∈ r.tasks, ¬ task.state.IsApproaching
  passed : config.run.duration < r.world.now → ∀ b, r.main ≠ .waiting b

theorem Bounded.le_of_atBarrier (hr : r.Bounded config) (h : r.AtBarrier) :
    r.world.now ≤ config.run.duration := by
  by_contra hlate
  rw [Nat.not_le] at hlate
  rcases h with ⟨task, htask, b, hb⟩ | ⟨b, hb⟩
  · exact hr.approaching hlate task htask (Participant.isApproaching_of_barrier? hb)
  · exact hr.passed hlate b hb

/-- The main task waits after a step only if it waited before. -/
theorem waiting_step {b : BarrierPhase} (h : r.step P config act = some r')
    (hmain : r'.main = .waiting b) :
    (r.main = .waiting b ∨ b.isReturned = false) ∧ ∃ b₀, r.main = .waiting b₀ := by
  cases act with
  | barrier a =>
    simp only [step] at h
    split at h
    · next b₀ hb₀ =>
      obtain ⟨b', -, rfl⟩ := Option.map_eq_some_iff.mp h
      refine ⟨.inr ?_, b₀, hb₀⟩
      cases b' with
      | returned result => cases result <;> cases hmain
      | _ =>
        obtain rfl := MainPhase.waiting.inj hmain
        rfl
    · cases h
  | task i a =>
    simp only [step] at h
    split at h
    · cases h
    · obtain ⟨⟨state, effects⟩, -, rfl⟩ := Option.map_eq_some_iff.mp h
      exact ⟨.inl hmain, b, hmain⟩
  | _ =>
    simp only [step] at h
    grind

/-- When the deadline of the run has come, nobody is on the way to a barrier that is due. -/
theorem Bounded.of_prompt {d : Duration} (hr : r.Bounded config)
    (hbarrier : barrierDeadline config ≤ config.run.duration)
    (hprompt : r.Prompt P config (.elapse d)) (hnow : r.world.now ≤ config.run.duration)
    (hlate : config.run.duration < r.world.now + d) :
    (∀ task ∈ r.tasks, ¬ task.state.IsApproaching) ∧ ∀ b, r.main ≠ .waiting b := by
  -- the moment of the deadline is one of those that pass
  have hpasses : config.run.duration - r.world.now < d := Nat.sub_lt_left_of_lt_add hnow hlate
  have hdue : config.run.duration ≤ (r.later (config.run.duration - r.world.now)).world.now :=
    (Nat.add_sub_cancel' hnow).ge
  constructor
  · intro task htask happroaching
    obtain ⟨i, hget⟩ := List.mem_iff_getElem?.mp htask
    -- such a participant has a step left, for which time would have waited
    obtain ⟨a, hinternal, q, hstep⟩ := Participant.exists_internal (P := P) task.participant
      happroaching (hr.waiter task htask) hdue (hbarrier.trans hdue)
    have hrefused := hprompt _ hpasses (.task i a) hinternal
    have hget' : (r.later (config.run.duration - r.world.now)).tasks[i]? = some task := hget
    simp only [step, hget', hstep, Option.map_some] at hrefused
    cases hrefused
  · intro b hb
    obtain ⟨a, b', hstep⟩ := BarrierPhase.exists_step (hr.main b hb) (hbarrier.trans hdue)
    have hrefused := hprompt _ hpasses (.barrier a) rfl
    have hb' : (r.later (config.run.duration - r.world.now)).main = .waiting b := hb
    simp only [step, hb', hstep, Option.map_some] at hrefused
    cases hrefused

/-- **A step keeps the barrier within the deadline of the run.** -/
theorem Bounded.step (hr : r.Bounded config)
    (hbarrier : barrierDeadline config ≤ config.run.duration) (hprompt : r.Prompt P config act)
    (h : r.step P config act = some r') : r'.Bounded config := by
  have hmain : ∀ b, r'.main = .waiting b → b.isReturned = false := by
    intro b hb
    rcases (waiting_step h hb).1 with hold | hnew
    · exact hr.main b hold
    · exact hnew
  rcases step_cases h with ⟨i, a, task, state, effects, rfl, hget, hstep, rfl⟩ | ⟨hact, hidle⟩
  · have hmem := List.mem_of_getElem? hget
    have hnow : (r.advance i task state effects).world.now = r.world.now :=
      World.applyAll_now _ _
    refine ⟨?_, hmain, ?_, ?_⟩
    · intro other hother b hb
      rcases List.mem_or_eq_of_mem_set hother with hother | rfl
      · exact hr.waiter other hother b hb
      · exact Participant.isReturned_step (hr.waiter task hmem) hstep hb
    · intro hlate other hother
      rw [hnow] at hlate
      rcases List.mem_or_eq_of_mem_set hother with hother | rfl
      · exact hr.approaching hlate other hother
      · exact Participant.not_isApproaching_step (hr.approaching hlate task hmem) hlate.le hstep
    · intro hlate b
      rw [hnow] at hlate
      exact hr.passed hlate b
  · have hpassed : config.run.duration < r'.world.now →
        (∀ task ∈ r.tasks, ¬ task.state.IsApproaching) ∧ ∀ b, r.main ≠ .waiting b := by
      intro hlate
      by_cases hearlier : config.run.duration < r.world.now
      · exact ⟨hr.approaching hearlier, hr.passed hearlier⟩
      · -- only time that passes brings the deadline
        cases act with
        | elapse d =>
          obtain rfl := Option.some.inj h
          exact hr.of_prompt hbarrier hprompt (Nat.not_lt.mp hearlier) hlate
        | _ =>
          rw [now_step (by simp) h] at hlate
          exact absurd hlate hearlier
    refine ⟨?_, hmain, ?_, ?_⟩
    · rw [hidle.tasks]
      exact hr.waiter
    · intro hlate
      rw [hidle.tasks]
      exact (hpassed hlate).1
    · intro hlate b hb
      obtain ⟨b₀, hb₀⟩ := (waiting_step h hb).2
      exact (hpassed hlate).2 b₀ hb₀

theorem bounded_spawn (delays : List Duration) (stop : Bool) :
    (spawn config delays stop).Bounded config := by
  refine ⟨?_, ?_, fun hlate => absurd hlate (Nat.not_lt_zero _),
    fun hlate => absurd hlate (Nat.not_lt_zero _)⟩
  · intro task htask b hb
    obtain ⟨-, -, delay, hstate⟩ := exists_of_mem_spawn htask
    rw [hstate] at hb
    cases hb
  · intro b hb
    unfold spawn enterMain at hb
    split at hb
    · cases hb
    · obtain rfl := MainPhase.waiting.inj hb
      rfl

end Run

/-! ## A barrier that stays closed -/

namespace Participant

/-- A participant that has not connected yet, or is done, or waits at the barrier after this many
notifications. -/
def IsIdle (notifications : ℕ) (p : Participant) : Prop :=
  match p.phase with
  | .spawned _ | .ramping _ | .looping | .dialing | .returned _ => True
  | .connected (.waiting (.armed seen) none) => seen = notifications
  | _ => False

/-- The steps to the dial that a participant may still make on its own. -/
def rank (p : Participant) : ℕ :=
  match p.phase with
  | .spawned _ => 4
  | .ramping _ => 3
  | .looping => 2
  | .dialing => 1
  | _ => 0

variable {participant : ParticipantConfig} {w : World} {out : List Effect} {p p' : Participant}
  {act : ParticipantAct}

theorem rank_of_barrier? {barrier : BarrierPhase} (h : p.barrier? = some barrier) : p.rank = 0 := by
  obtain ⟨phase, attempt, recoveryStarted⟩ := p
  cases phase with
  | connected session => rfl
  | _ => cases h

/-- The session of such a participant waits at the barrier. -/
theorem IsIdle.session_eq {notifications : ℕ} {session : Session} (hp : p.IsIdle notifications)
    (hphase : p.phase = .connected session) : session = .waiting (.armed notifications) none := by
  unfold IsIdle at hp
  rw [hphase] at hp
  cases session with
  | waiting barrier reader =>
    cases reader with
    | some reader => cases barrier <;> exact hp.elim
    | none =>
      cases barrier with
      | armed seen =>
        obtain rfl : seen = notifications := hp
        rfl
      | _ => exact hp.elim
  | _ => exact hp.elim

/-- A waiter that has seen every notification makes no step before its deadline. -/
theorem step_armed (hstop : w.stop = false) (hclosed : w.now < barrierDeadline config)
    (b : BarrierAct) : (BarrierPhase.armed w.notifications).step config w b = none := by
  cases b <;> simp [BarrierPhase.step, hstop, Nat.not_le.mpr hclosed]

/-- A participant on its own dials at most, and nobody is notified. -/
theorem isIdle_step (hp : p.IsIdle w.notifications) (hstop : w.stop = false)
    (hclosed : w.now < barrierDeadline config) (hinternal : act.isInternal = true)
    (h : p.step P participant config w act = some (p', out)) :
    p'.IsIdle w.notifications ∧ p'.rank < p.rank ∧
      (out = [] ∨ out = [.add .connectionAttempts 1]) := by
  cases steps_of_step h with
  | startOver _ hphase | ramp _ _ hphase | rampCut _ hphase | leave hphase
  | dialDeadline hphase => exact ⟨trivial, by simp [rank, hphase, goto], .inl rfl⟩
  | enter endsAt hphase =>
    unfold enter
    split
    · exact ⟨trivial, by simp [rank, hphase], .inl rfl⟩
    · exact ⟨trivial, by simp [rank, hphase], .inl rfl⟩
  | dial hphase => exact ⟨trivial, by simp [rank, hphase, goto], .inr rfl⟩
  | dialStopped hphase hstopped =>
    rw [hstop] at hstopped
    cases hstopped
  -- a dial is ended by the peer
  | connect | connectRetried | connectFails => cases hinternal
  | session session session' a out hphase hsession =>
    -- neither stop nor a notification nor the deadline lets the waiter go on
    obtain rfl := hp.session_eq hphase
    cases Session.steps_of_step hsession with
    | barrier _ barrier' _ b hbarrier => cases (step_armed hstop hclosed b).symm.trans hbarrier
    | reader _ reader _ _ _ halive => cases halive
  | sessionOver result hphase => cases hp.session_eq hphase
  | redial _ _ hphase | backoffCut _ _ hphase | reconnect _ hphase | openRequired _ hphase
  | openSession _ hphase | marked hphase | notified hphase | retry _ _ hphase =>
    rw [IsIdle, hphase] at hp
    exact hp.elim

end Participant

namespace Run

variable {r r' : Run} {act : RunAct} {acts : List RunAct}

/-- Nobody notifies the waiters, who have seen all notifications. -/
structure Stuck (r : Run) : Prop where
  stop : r.stop = false
  worldStop : r.world.stop = false
  main : r.main = .waiting (.armed r.world.notifications)
  tasks : ∀ task ∈ r.tasks, task.state.IsIdle r.world.notifications

/-- The steps that the tasks may still make on their own. -/
def rank (r : Run) : ℕ := (r.tasks.map fun task => task.state.rank).sum

/-- Those who wait at the barrier still wait. -/
def KeepsWaiting (r r' : Run) : Prop :=
  ∀ (i : ℕ) (task : Task) (barrier : BarrierPhase), r.tasks[i]? = some task →
    task.state.barrier? = some barrier → r'.tasks[i]? = some task

theorem KeepsWaiting.trans {r'' : Run} (h : r.KeepsWaiting r') (h' : r'.KeepsWaiting r'') :
    r.KeepsWaiting r'' :=
  fun i task barrier hget hbarrier => h' i task barrier (h i task barrier hget hbarrier) hbarrier

theorem rank_set {tasks : List Task} {i : ℕ} {task task' : Task} (hget : tasks[i]? = some task)
    (hrank : task'.state.rank < task.state.rank) :
    ((tasks.set i task').map fun task => task.state.rank).sum <
      (tasks.map fun task => task.state.rank).sum := by
  induction tasks generalizing i with
  | nil => cases hget
  | cons first tasks ih =>
    cases i with
    | zero =>
      obtain rfl := Option.some.inj hget
      simp only [List.set_cons_zero, List.map_cons, List.sum_cons]
      omega
    | succ i =>
      have hrest := ih hget
      simp only [List.set_cons_succ, List.map_cons, List.sum_cons]
      omega

/-- **A run that is stuck stays stuck** as long as nothing comes from outside and the barrier is
not due, and goes on for a bounded number of steps. -/
theorem Stuck.step (hr : r.Stuck) (hclosed : r.world.now < barrierDeadline config)
    (hinternal : act.isInternal = true) (h : r.step P config act = some r') :
    r'.Stuck ∧ r'.rank < r.rank ∧ r'.world.now = r.world.now ∧ KeepsWaiting r r' := by
  obtain ⟨hstop, hworldStop, hmain, htasks⟩ := hr
  cases act with
  | elapse d => cases hinternal
  | stop => cases hinternal
  | forward => simp [Run.step, hstop] at h
  | barrier a =>
    -- the main task waits with the others
    cases a <;>
      simp [Run.step, hmain, BarrierPhase.step, hworldStop, Nat.not_le.mpr hclosed] at h
  | missing => simp [Run.step, hmain] at h
  | join i => simp [Run.step, hmain] at h
  | evaluate => simp [Run.step, hmain] at h
  | task i a =>
    simp only [Run.step] at h
    split at h
    · cases h
    · next task hget =>
      obtain ⟨⟨state, effects⟩, hstep, rfl⟩ := Option.map_eq_some_iff.mp h
      have hidle := htasks task (List.mem_of_getElem? hget)
      obtain ⟨hidle', hrank, hout⟩ :=
        Participant.isIdle_step hidle hworldStop hclosed hinternal hstep
      have hnotifications : (r.world.applyAll effects).notifications = r.world.notifications := by
        rcases hout with rfl | rfl <;> rfl
      refine ⟨⟨hstop, (World.applyAll_stop _ _).trans hworldStop, ?_, ?_⟩, rank_set hget hrank,
        World.applyAll_now _ _, ?_⟩
      · rw [advance, hnotifications]
        exact hmain
      · intro other hother
        rw [advance, hnotifications]
        rcases List.mem_or_eq_of_mem_set hother with hother | rfl
        · exact htasks other hother
        · exact hidle'
      · -- a waiter makes no step: it has rank zero
        intro j other barrier hother hbarrier
        have hij : i ≠ j := by
          rintro rfl
          obtain rfl := Option.some.inj (hget.symm.trans hother)
          rw [Participant.rank_of_barrier? hbarrier] at hrank
          exact absurd hrank (Nat.not_lt_zero _)
        exact (List.getElem?_set_ne hij).trans hother

theorem prompt_of_isInternal (h : act.isInternal = true) : r.Prompt P config act := by
  cases act with
  | elapse d => cases h
  | _ => trivial

/-- A run that is stuck comes to a rest: no internal step can be made. -/
theorem Stuck.exists_rest (hr : r.Stuck) (hclosed : r.world.now < barrierDeadline config) :
    ∃ acts r', (machine P config).exec r acts = some r' ∧
      (machine P config).Along (Prompt P config) r acts ∧ r'.Stuck ∧
      r'.world.now = r.world.now ∧ r.KeepsWaiting r' ∧
      ∀ act, act.isInternal = true → r'.step P config act = none := by
  -- by induction on the steps that the tasks may still make
  induction hrank : r.rank using Nat.strong_induction_on generalizing r with
  | _ n ih =>
    subst hrank
    by_cases hrest : ∀ act, act.isInternal = true → r.step P config act = none
    · exact ⟨[], r, rfl, trivial, hr, rfl, fun _ _ _ hget _ => hget, hrest⟩
    · push Not at hrest
      obtain ⟨act, hinternal, hne⟩ := hrest
      obtain ⟨u, hu⟩ := Option.ne_none_iff_exists'.mp hne
      obtain ⟨hstuck, hless, hnow, hkeeps⟩ := hr.step hclosed hinternal hu
      obtain ⟨acts, r', hexec, hprompt, hr', hnow', hkeeps', hrest'⟩ :=
        ih u.rank hless hstuck (hnow ▸ hclosed) rfl
      have hstep : (machine P config).step r act = some u := hu
      exact ⟨act :: acts, r', Machine.exec_step hstep hexec,
        (Machine.along_cons hstep).mpr ⟨prompt_of_isInternal hinternal, hprompt⟩, hr',
        hnow'.trans hnow, hkeeps.trans hkeeps', hrest'⟩

/-- **A run that is stuck waits up to the deadline of the barrier**: there is one for each time
until then. -/
theorem Stuck.exists_later (hr : r.Stuck) {time : Instant} (hnow : r.world.now ≤ time)
    (htime : time ≤ barrierDeadline config) :
    ∃ acts r', (machine P config).exec r acts = some r' ∧
      (machine P config).Along (Prompt P config) r acts ∧ r'.Stuck ∧ r'.world.now = time ∧
      r.KeepsWaiting r' := by
  induction time, hnow using Nat.le_induction with
  | base => exact ⟨[], r, rfl, trivial, hr, rfl, fun _ _ _ hget _ => hget⟩
  | succ time hle ih =>
    obtain ⟨acts, u, hexec, hprompt, hu, rfl, hkeeps⟩ := ih (Nat.le_of_succ_le htime)
    obtain ⟨acts', v, hexec', hprompt', hv, hnow, hkeeps', hrest⟩ := hu.exists_rest (P := P) htime
    -- at rest, time passes by the smallest amount
    have hstep : (machine P config).step v (.elapse 1) = some (v.later 1) := rfl
    have hpasses : v.Prompt P config (.elapse 1) := by
      intro d' hd' act hinternal
      obtain rfl := Nat.lt_one_iff.mp hd'
      exact hrest act hinternal
    refine ⟨(acts ++ acts') ++ [.elapse 1], v.later 1, ?_, ?_, ?_, ?_, hkeeps.trans hkeeps'⟩
    · exact Machine.exec_append (Machine.exec_append hexec hexec') (Machine.exec_step hstep rfl)
    · refine (Machine.along_append (Machine.exec_append hexec hexec')).mpr ⟨?_, ?_⟩
      · exact (Machine.along_append hexec).mpr ⟨hprompt, hprompt'⟩
      · exact (Machine.along_cons hstep).mpr ⟨hpasses, trivial⟩
    · exact ⟨hv.stop, hv.worldStop, hv.main, hv.tasks⟩
    · rw [← hnow]
      rfl

/-- The main task waits for a participant that is not ready. -/
theorem exists_stuck (delays : List Duration)
    (hrequired : config.synchronization.waitForReady ≠ []) :
    ∃ r, (machine P config).exec (spawn config delays false) [.barrier .check, .barrier .arm] =
        some r ∧ r.Stuck ∧ r.world.now = 0 := by
  have hmain : (spawn config delays false).main = .waiting .checking := by
    simp [spawn, enterMain, hrequired]
  have hclosed : isReady config (spawn config delays false).world.ready = false := by
    cases hready : config.synchronization.waitForReady with
    | nil => exact absurd hready hrequired
    | cons id ids => simp [isReady, hready, spawn, World.initial]
  have hcheck : (machine P config).step (spawn config delays false) (.barrier .check) =
      some { spawn config delays false with main := .waiting .unarmed } := by
    simp only [machine, step, hmain, BarrierPhase.step, hclosed, Option.map_some]
    rfl
  refine ⟨{ spawn config delays false with main := .waiting (.armed 0) },
    Machine.exec_step hcheck rfl, ⟨rfl, rfl, rfl, ?_⟩, rfl⟩
  intro task htask
  obtain ⟨-, -, delay, hstate⟩ :=
    exists_of_mem_spawn (show task ∈ (spawn config delays false).tasks from htask)
  rw [hstate]
  trivial

/-- A barrier with a deadline of its own waits for somebody. -/
theorem waitForReady_ne_nil {options : SafetyOptions}
    (haccepted : validateWithOptions config options = .ok ())
    (hlonger : config.run.duration < barrierDeadline config) :
    config.synchronization.waitForReady ≠ [] := by
  intro hnil
  have hchecked := (accepted_of_validateWithOptions haccepted).synchronization
  rw [validateSynchronization, hnil] at hchecked
  simp only [List.isEmpty_nil, if_true, rejectIf_eq_ok, Option.isSome_eq_false_iff,
    Option.isNone_iff_eq_none] at hchecked
  rw [barrierDeadline, hchecked] at hlonger
  exact Nat.lt_irrefl _ hlonger

/-- **The deadline of the run bounds the barrier**, in all runs of an accepted configuration,
exactly when the deadline of the barrier is not after it. -/
theorem barrier_bounded_iff {started : ℤ} {shuffle : ℕ → List Duration → List Duration}
    {options : SafetyOptions} {r₁ : Run}
    (hstart : start config started shuffle options false = .ok r₁) :
    (∀ stop r₀ acts r, start config started shuffle options stop = .ok r₀ →
      (machine P config).exec r₀ acts = some r →
      (machine P config).Along (Prompt P config) r₀ acts →
      r.AtBarrier → r.world.now ≤ config.run.duration) ↔
    barrierDeadline config ≤ config.run.duration := by
  constructor
  · intro hbounded
    by_contra hlonger
    rw [Nat.not_le] at hlonger
    obtain ⟨haccepted, delays, rfl⟩ := exists_of_mem_start hstart
    obtain ⟨u, hexec, hstuck, hnow⟩ := exists_stuck (P := P) delays
      (waitForReady_ne_nil haccepted hlonger)
    have hprompt : (machine P config).Along (Prompt P config) (spawn config delays false)
        [.barrier .check, .barrier .arm] := Machine.along_of_forall (by simp [Prompt])
    -- one moment after the deadline of the run the main task still waits
    obtain ⟨acts, r, hexec', hprompt', hr, hlate, -⟩ :=
      hstuck.exists_later (P := P) (hnow ▸ Nat.zero_le _) (Nat.succ_le_of_lt hlonger)
    have hle := hbounded false _ _ r hstart (Machine.exec_append hexec hexec')
      ((Machine.along_append hexec).mpr ⟨hprompt, hprompt'⟩) (.inr ⟨_, hr.main⟩)
    rw [hlate] at hle
    exact Nat.not_succ_le_self _ hle
  · intro hbarrier stop r₀ acts r hstart' hexec hprompt hwaits
    obtain ⟨-, delays, rfl⟩ := exists_of_mem_start hstart'
    have hr : r.Bounded config := Machine.exec_invariant_along (m := machine P config)
      (fun _ _ _ hs hprompt hstep => hs.step hbarrier hprompt hstep) hprompt
      (bounded_spawn delays stop) hexec
    exact hr.le_of_atBarrier hwaits

/-! ## A barrier with a longer deadline -/

namespace Closed

def alice : ParticipantConfig := { id := "alice", role := .sendOnly }

def bob : ParticipantConfig := { id := "bob", role := .receiveOnly }

/-- A production run of a quarter of an hour. -/
def production (timeout : Duration) : AppConfig where
  environment := .production
  authorization := { acknowledged := true }
  target := { server := "tak.example:8089" }
  allowHosts := ["tak.example"]
  run := { clients := 2, duration := Duration.fromSecs 900 }
  participants := [alice, bob]
  synchronization := { waitForReady := ["bob"], timeout := some timeout }

def options : SafetyOptions := { allowProduction := true }

/-- A barrier of a minute. -/
def minute : AppConfig := production (Duration.fromSecs 60)

/-- A barrier of an hour. -/
def hour : AppConfig := production (Duration.fromSecs 3600)

/-- A participant connects, and waits at the barrier as the main task does. -/
def connecting : List RunAct :=
  [.barrier .check, .barrier .arm, .task 0 .start, .task 0 .delayOver, .task 0 .enterLoop,
    .task 0 (.connected 0), .task 0 .sampled, .task 0 (.session (.barrier .check)),
    .task 0 (.session (.barrier .arm))]

end Closed

/-- A barrier with a deadline before the one of the run: the main task waits up to the deadline of
the barrier, and the run is not over then. -/
theorem barrier_bounded_iff_shorter :
    ∃ acts r, (machine Reference.platform Closed.minute).exec (spawn Closed.minute [0, 0] false)
        acts = some r ∧
      (machine Reference.platform Closed.minute).Along (Prompt Reference.platform Closed.minute)
        (spawn Closed.minute [0, 0] false) acts ∧
      r.AtBarrier ∧ r.world.now = Duration.fromSecs 60 ∧
      r.world.now ≤ Closed.minute.run.duration := by
  obtain ⟨u, hexec, hstuck, hnow⟩ := exists_stuck (P := Reference.platform)
    (show List Duration from [0, 0])
    (show Closed.minute.synchronization.waitForReady ≠ [] by decide)
  have hprompt : (machine Reference.platform Closed.minute).Along
      (Prompt Reference.platform Closed.minute) (spawn Closed.minute [0, 0] false)
      [.barrier .check, .barrier .arm] := Machine.along_of_forall (by simp [Prompt])
  obtain ⟨acts, r, hexec', hprompt', hr, hlate, -⟩ :=
    hstuck.exists_later (P := Reference.platform) (hnow ▸ Nat.zero_le _)
      (show Duration.fromSecs 60 ≤ barrierDeadline Closed.minute by decide)
  have hrun := Machine.exec_append hexec hexec'
  have halong := (Machine.along_append hexec).mpr ⟨hprompt, hprompt'⟩
  have hwaits : r.AtBarrier := .inr ⟨_, hr.main⟩
  refine ⟨_, r, hrun, halong, hwaits, hlate, ?_⟩
  -- the start is the one the theorem is about
  have hstart : start Closed.minute 0 (fun _ => id) Closed.options false =
      .ok (spawn Closed.minute [0, 0] false) := rfl
  exact (barrier_bounded_iff hstart).mpr (by decide) false _ _ _ hstart hrun halong hwaits

/-- A production run of an accepted configuration: half an hour after the start, a participant with
an open connection and the main task wait at the barrier. -/
theorem barrier_unbounded :
    start Closed.hour 0 (fun _ => id) Closed.options false = .ok (spawn Closed.hour [0, 0] false) ∧
      ∃ acts r, (machine Reference.platform Closed.hour).exec (spawn Closed.hour [0, 0] false)
          acts = some r ∧
        (machine Reference.platform Closed.hour).Along (Prompt Reference.platform Closed.hour)
          (spawn Closed.hour [0, 0] false) acts ∧
        Closed.hour.run.duration < r.world.now ∧ r.world.now = Duration.fromSecs 1800 ∧
        (∃ task ∈ r.tasks, task.participant.id = "alice" ∧
          task.state.barrier? = some (.armed 0)) ∧
        ∃ barrier, r.main = .waiting barrier := by
  have hprompt : (machine Reference.platform Closed.hour).Along
      (Prompt Reference.platform Closed.hour) (spawn Closed.hour [0, 0] false)
      Closed.connecting := Machine.along_of_forall (by simp [Closed.connecting, Prompt])
  obtain ⟨u, hexec, hstuck, hnow, task, hget, halice, hwaits⟩ : ∃ u : Run,
      (machine Reference.platform Closed.hour).exec (spawn Closed.hour [0, 0] false)
        Closed.connecting = some u ∧ u.Stuck ∧ u.world.now = 0 ∧ ∃ task : Task,
      u.tasks[0]? = some task ∧ task.participant.id = "alice" ∧
        task.state.barrier? = some (.armed 0) := by
    refine ⟨_, rfl, ⟨rfl, rfl, rfl, ?_⟩, rfl, _, rfl, rfl, rfl⟩
    exact List.forall_mem_cons.mpr ⟨rfl, List.forall_mem_singleton.mpr trivial⟩
  obtain ⟨acts, r, hexec', hprompt', hr, hlate, hkeeps⟩ :=
    hstuck.exists_later (P := Reference.platform) (hnow ▸ Nat.zero_le _)
      (show Duration.fromSecs 1800 ≤ barrierDeadline Closed.hour by decide)
  refine ⟨rfl, _, r, Machine.exec_append hexec hexec',
    (Machine.along_append hexec).mpr ⟨hprompt, hprompt'⟩, ?_, hlate, ?_, _, hr.main⟩
  · rw [hlate]
    decide
  · exact ⟨task, List.mem_of_getElem? (hkeeps 0 task _ hget hwaits), halice, hwaits⟩

end Run

end TakBench
