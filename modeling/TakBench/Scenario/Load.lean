import Mathlib.Algebra.Group.Action.Defs
import Mathlib.Algebra.Order.BigOperators.Group.List
import TakBench.Protocol.Reference
import TakBench.Scenario.Run

/-!
# The load of a run

A sender makes one event at each tick of its interval, and the ticks are at least a period apart,
the first one a period after the start. A participant has one sender at a time, so after a time `t`
it has made at most `t / p` events over all its connections, where `p` is the period of the
configuration.

## Main definitions

* `Paced`: the events of a task in terms of time

## Main results

* `Run.paced_run`: every task of a run is paced
* `Run.production_load`: the load of a production run
-/

namespace TakBench

variable {P : Platform} {participant : ParticipantConfig} {config : AppConfig}

/-! ## The pace of a sender -/

/-- The sender of a task that has made some events: its next tick is a period after each of
them. -/
structure Sender.Paced (period : Duration) (made : ℕ) (s : Sender) : Prop where
  period_le : period ≤ s.interval
  next_le : (made + 1) * period ≤ s.nextTick

/-- **A step of a paced sender** keeps the pace, and makes an event only when it is due. -/
theorem Sender.Paced.step {period : Duration} {made : ℕ} {s s' : Sender} {w : World}
    {act : SenderAct} {out : List Effect} (hs : s.Paced period made)
    (h : s.step P participant config w act = some (s', out))
    (hmade : made * period ≤ w.now) :
    s'.Paced period (made + total Effect.generated out) ∧
      (made + total Effect.generated out) * period ≤ w.now := by
  rcases Sender.step_cases h with ⟨utc, id, rfl, hdue, effects, rfl, hkeeps⟩ |
    ⟨-, hinterval, hnext, -, -, hsends⟩
  -- a tick is due, and it makes one event
  · have hone : total Effect.generated (.generate (s.eventId config id) :: effects) = 1 := by
      rw [total_cons, total_generated_of_sends hkeeps.sends]
      rfl
    have hinterval : s'.interval = s.interval := hkeeps.interval
    have hnext : s'.nextTick = nextTimeout s.nextTick w.now s.interval := hkeeps.nextTick
    rw [hone]
    refine ⟨⟨hinterval ▸ hs.period_le, ?_⟩, hs.next_le.trans hdue⟩
    calc (made + 1 + 1) * period = (made + 1) * period + period := Nat.succ_mul _ _
      _ ≤ s.nextTick + s.interval := Nat.add_le_add hs.next_le hs.period_le
      _ ≤ nextTimeout s.nextTick w.now s.interval := le_nextTimeout _ hdue
      _ = s'.nextTick := hnext.symm
  -- every other step makes none, and leaves the ticker alone
  · rw [total_generated_of_sends hsends, Nat.add_zero]
    exact ⟨⟨hinterval ▸ hs.period_le, hnext ▸ hs.next_le⟩, hmade⟩

/-! ## The pace of a task -/

/-- A task has made at most one event in each period, and its sender keeps the pace. -/
structure Paced (config : AppConfig) (w : World) (task : Task) : Prop where
  generated : total Effect.generated task.log * config.run.gpsInterval ≤ w.now
  alive : ∀ s, task.state.sender? = some s →
    s.Paced config.run.gpsInterval (total Effect.generated task.log)

theorem paced_step {w : World} {task : Task} {act : ParticipantAct} {state : Participant}
    {out : List Effect} (htask : Paced config w task)
    (h : task.state.step P task.participant config w act = some (state, out)) :
    Paced config w { task with state, log := task.log ++ out } := by
  obtain ⟨participant, p, log⟩ := task
  obtain ⟨hgenerated, halive⟩ := htask
  simp only at hgenerated halive h
  rcases Participant.sender_cases h with ⟨s, s', a, rfl, hs, hstep, hs', -⟩ |
    ⟨interval, -, -, -, hinterval, -, hs', -, rfl⟩ | ⟨s, -, -, hs', -, rfl⟩ |
    ⟨-, hsame, -, hquiet⟩
  -- the sender steps: its ticks count the events of the task
  · obtain ⟨hpaced, hmade⟩ := (halive s hs).step hstep hgenerated
    rw [← total_append] at hpaced hmade
    refine ⟨hmade, fun alive hliving => ?_⟩
    obtain rfl := Session.eq_of_alive? (hs'.symm.trans hliving)
    exact hpaced
  -- a new sender starts on a new connection, a period before its first event
  · rw [List.append_nil]
    refine ⟨hgenerated, fun alive hliving => ?_⟩
    obtain rfl := Option.some.inj (hs'.symm.trans hliving)
    have hperiod := gpsInterval_le_emissionInterval hinterval
    refine ⟨hperiod, ?_⟩
    rw [Nat.succ_mul]
    exact Nat.add_le_add hgenerated hperiod
  -- the sender is dropped where it stands
  · rw [List.append_nil]
    exact ⟨hgenerated, fun alive hliving => nomatch hs'.symm.trans hliving⟩
  -- nothing is made
  · have htotal : total Effect.generated (log ++ out) = total Effect.generated log := by
      rw [total_append, (total_eq_zero_of_quiet hquiet).1, Nat.add_zero]
    refine ⟨htotal ▸ hgenerated, fun alive hliving => ?_⟩
    rw [htotal]
    exact halive alive (hsame ▸ hliving)

namespace Run

theorem paced_invariant : TaskInvariant P config (Paced config) where
  spawn w participant delay _ := ⟨by simp, fun _ h => nomatch h⟩
  later w w' task hnow _ htask := ⟨htask.generated.trans hnow, htask.alive⟩
  step w task act state effects htask h := paced_step htask h

/-- Without invalid events every event has an id. -/
theorem valid_invariant (hinvalid : config.scenario.invalid.enabled = false) :
    TaskInvariant P config (fun _ task => .generate none ∉ task.log) where
  spawn w participant delay _ := by simp
  later w w' task _ _ htask := htask
  step w task act state effects htask h := by
    have hout : .generate none ∉ effects := by
      rcases Participant.sender_cases h with ⟨s, s', a, rfl, -, hstep, -, -⟩ |
        ⟨interval, -, -, -, -, -, -, -, rfl⟩ | ⟨s, -, -, -, -, rfl⟩ | ⟨-, -, -, hquiet⟩
      · rcases Sender.step_cases hstep with
          ⟨utc, id, rfl, -, rest, rfl, hkeeps⟩ | ⟨-, -, -, -, -, hsends⟩
        · have hid : s.eventId config id = some id := by
            simp [Sender.eventId, invalidKind, hinvalid]
          rw [hid, List.mem_cons, not_or]
          exact ⟨by simp, fun hmem => hkeeps.sends _ hmem⟩
        · exact fun hmem => hsends _ hmem
      · simp
      · simp
      · exact fun hmem => hquiet _ hmem
    exact fun hmem => (List.mem_append.mp hmem).elim htask hout

theorem length_tasks {r₀ r : Run} {acts : List RunAct}
    (h : (machine P config).exec r₀ acts = some r) : r.tasks.length = r₀.tasks.length := by
  refine Machine.exec_rel (R := fun s t : Run => t.tasks.length = s.tasks.length)
    (fun _ => rfl) (fun _ _ _ hst htu => htu.trans hst) (fun s a t hstep => ?_) h
  rcases step_cases hstep with ⟨i, act, task, state, effects, -, -, -, rfl⟩ | ⟨-, hidle⟩
  · exact List.length_set ..
  · rw [hidle.tasks]

/-- **The load of a production run**: at most three connections are open, no invalid event is made,
and at most three events are made in each thirty seconds since the start. -/
theorem production_load {started : ℤ} {shuffle : ℕ → List Duration → List Duration}
    {options : SafetyOptions} {stop : Bool} {r₀ r : Run} {acts : List RunAct}
    (hproduction : config.environment = .production)
    (hstart : start config started shuffle options stop = .ok r₀)
    (h : (machine P config).exec r₀ acts = some r) :
    (r.tasks.filter fun task => task.state.isConnected).length ≤ 3 ∧
      (∀ task ∈ r.tasks, .generate none ∉ task.log) ∧
      (r.tasks.map fun task => total Effect.generated task.log).sum ≤
        3 * (r.world.now / Duration.fromSecs 30) := by
  obtain ⟨haccepted, delays, rfl⟩ := exists_of_mem_start hstart
  obtain ⟨hclients, hperiod, hinvalid⟩ := production_limits haccepted hproduction
  -- a connection belongs to a task, and there is a task for each participant
  have hlength : r.tasks.length ≤ 3 := by
    rw [length_tasks h, spawn, List.length_map, List.length_zip]
    exact (Nat.min_le_left _ _).trans hclients
  refine ⟨(List.length_filter_le _ _).trans hlength,
    (valid_invariant hinvalid).run hstart h, ?_⟩
  have hpaced := paced_invariant.run hstart h
  -- each task is paced by its own interval
  have htask : ∀ n ∈ r.tasks.map fun task => total Effect.generated task.log,
      n ≤ r.world.now / Duration.fromSecs 30 := by
    intro n hn
    obtain ⟨task, htask, rfl⟩ := List.mem_map.mp hn
    rw [Nat.le_div_iff_mul_le (by decide)]
    exact (Nat.mul_le_mul_left _ hperiod).trans (hpaced task htask).generated
  have hsum := List.sum_le_card_nsmul _ _ htask
  rw [List.length_map, smul_eq_mul] at hsum
  exact hsum.trans (Nat.mul_le_mul_right _ hlength)

/-! ## A production run -/

namespace Guarded

def alpha : ParticipantConfig := { id := "alpha", role := .sendOnly }

def bravo : ParticipantConfig := { id := "bravo", role := .sendOnly }

/-- Two participants on an approved host, that write three events at a time. -/
def pilot : AppConfig where
  environment := .production
  authorization := { acknowledged := true }
  target := { server := "tak.example:8089" }
  allowHosts := ["tak.example"]
  run := { clients := 2 }
  participants := [alpha, bravo]
  scenario := { fragmentation := { eventsPerWrite := 3 } }

def options : SafetyOptions := { allowProduction := true }

/-- Both connect. -/
def connecting : List RunAct :=
  [.task 0 .start, .task 0 .delayOver, .task 0 .enterLoop, .task 0 (.connected 0),
    .task 0 .sampled, .task 1 .start, .task 1 .delayOver, .task 1 .enterLoop,
    .task 1 (.connected 0), .task 1 .sampled, .task 0 (.session (.barrier .check)),
    .task 1 (.session (.barrier .check))]

/-- Half a minute passes, and the first makes an event. -/
def ticking (id : Uuid) : List RunAct :=
  [.elapse 30000000000, .task 0 (.session (.sender (.tick 0 id)))]

/-- A sender with `n` events in its batch, half a minute before its next tick. -/
structure Filling (s : Sender) (now : Instant) (n : ℕ) : Prop where
  phase : s.phase = .selecting
  interval : s.interval = 30000000000
  nextTick : s.nextTick = now + 30000000000
  events : s.batch.events = n
  bytes : s.batch.bytes.length ≤ n * 8192

/-- The first has made `n` events, and the other is connected. -/
def Making (r : Run) (now : Instant) (n : ℕ) : Prop :=
  r.world.now = now ∧ ∃ s log other,
    r.tasks = [⟨alpha, ⟨.connected (.sending s none), 0, 0⟩, log⟩, other] ∧ Filling s now n ∧
    total Effect.generated log = n ∧ total Effect.generated other.log = 0 ∧
    other.state.isConnected

theorem exists_connected : ∃ r, (machine P pilot).exec (spawn pilot [0, 0] false) connecting =
    some r ∧ Making r 0 0 :=
  ⟨_, rfl, rfl, _, _, _, rfl, ⟨rfl, rfl, rfl, rfl, Nat.le_refl 0⟩, rfl, rfl, rfl⟩

/-- A tick of a sender with room. -/
theorem Filling.step {s : Sender} {w : World} {now : Instant} {n : ℕ} {id : Uuid}
    (hs : Filling s now n) (hnow : w.now = now + 30000000000) (hroom : n < 2)
    (hlimit : (Utf8.asBytes (positionXml P participant pilot 0 id)).length ≤ 8192) :
    ∃ s', s.step P participant pilot w (.tick 0 id) = some (s', [.generate (some id)]) ∧
      Filling s' (now + 30000000000) (n + 1) := by
  obtain ⟨hphase, hinterval, htick, hevents, hbytes⟩ := hs
  obtain ⟨bytes, hrender⟩ : ∃ bytes, Utf8.asBytes (positionXml P participant pilot 0 id) = bytes :=
    ⟨_, rfl⟩
  rw [hrender] at hlimit
  have hfits : s.batch.bytes.length + bytes.length ≤ 8 * 1024 * 1024 := by omega
  have hopen : s.batch.events + 1 < max pilot.scenario.fragmentation.eventsPerWrite 1 := by
    rw [hevents]
    exact show n + 1 < 3 by omega
  have hdue : s.nextTick ≤ w.now := (htick.trans hnow.symm).le
  have hroom : s.tick P participant pilot w.now 0 id =
      ({ s.withPosition bytes id w.now with phase := .selecting }, [.generate (some id)]) :=
    Sender.tick_of_room rfl rfl hrender hfits hopen
  refine ⟨{ s.withPosition bytes id w.now with phase := .selecting }, ?_, rfl, hinterval, ?_, ?_,
    ?_⟩
  · simp only [Sender.step, hphase, hdue, if_true]
    exact congrArg some hroom
  · simp [Sender.withPosition, nextTimeout, htick, hnow, hinterval]
  · simp [Sender.withPosition, Sender.push, hevents]
  · rw [Nat.succ_mul]
    simpa [Sender.withPosition, Sender.push] using Nat.add_le_add hbytes hlimit

theorem exists_making {r : Run} {now : Instant} {n : ℕ} {id : Uuid} (hr : Making r now n)
    (hroom : n < 2) (hlimit : (Utf8.asBytes (positionXml P alpha pilot 0 id)).length ≤ 8192) :
    ∃ r', (machine P pilot).exec r (ticking id) = some r' ∧
      Making r' (now + 30000000000) (n + 1) := by
  obtain ⟨hnow, s, log, other, htasks, hs, hcount, hother, hconnected⟩ := hr
  obtain ⟨w, hw⟩ : ∃ w, { r.world with now := r.world.now + 30000000000 } = w := ⟨_, rfl⟩
  have hlater : w.now = now + 30000000000 := by rw [← hw, hnow]
  obtain ⟨t, hstep, ht⟩ := hs.step hlater hroom hlimit
  have hsend : Session.afterSender none t = .sending t none := by
    rw [Session.afterSender, ht.phase]
  have helapse : r.step P pilot (.elapse 30000000000) = some { r with world := w } := by
    rw [← hw]
    rfl
  have hfirst : { r with world := w }.tasks[0]? =
      some ⟨alpha, ⟨.connected (.sending s none), 0, 0⟩, log⟩ := by
    simp only [htasks]
    rfl
  refine ⟨_, Machine.exec_step helapse (Machine.exec_step
    (step_session hfirst (Session.step_sending hstep hsend)) rfl), ?_, t,
    log ++ [.generate (some id)], other, ?_, ht, ?_, hother, hconnected⟩
  · exact (World.applyAll_now _ _).trans hlater
  · simp only [advance, htasks]
    rfl
  · rw [total_append, hcount]
    rfl

end Guarded

/-- A minute of a run with two participants, one of which makes two events. -/
theorem production_load_guarded :
    ∃ r₀ acts r, start Guarded.pilot 0 (fun _ => id) Guarded.options false = .ok r₀ ∧
      (machine Reference.platform Guarded.pilot).exec r₀ acts = some r ∧
      r.world.now = Duration.fromSecs 60 ∧
      (r.tasks.map fun task => total Effect.generated task.log).sum = 2 ∧
      (r.tasks.filter fun task => task.state.isConnected).length ≤ 3 ∧
      (∀ task ∈ r.tasks, .generate none ∉ task.log) ∧
      2 ≤ 3 * (r.world.now / Duration.fromSecs 30) := by
  have hlimit : ∀ id, (Utf8.asBytes (positionXml Reference.platform Guarded.alpha Guarded.pilot 0
      id)).length ≤ 8192 := fun id => (Reference.length_toXml_le _).trans
    (show 4 * ((escape "tak-bench-alpha").toList.length +
      (escape "alpha").toList.length + 600) ≤ 8192 by decide)
  have hstart : start Guarded.pilot 0 (fun _ => id) Guarded.options false =
      .ok (spawn Guarded.pilot [0, 0] false) := rfl
  obtain ⟨r₁, hconnected, hmaking⟩ := Guarded.exists_connected (P := Reference.platform)
  obtain ⟨r₂, hfirst, hmaking⟩ := Guarded.exists_making hmaking (by decide) (hlimit 7)
  obtain ⟨r₃, hsecond, hnow, s, log, other, htasks, -, hcount, hother, -⟩ :=
    Guarded.exists_making hmaking (by decide) (hlimit 8)
  have hexec := Machine.exec_append hconnected (Machine.exec_append hfirst hsecond)
  have htwo : (r₃.tasks.map fun task => total Effect.generated task.log).sum = 2 := by
    rw [htasks]
    simp [hcount, hother]
  have hload := production_load rfl hstart hexec
  rw [htwo] at hload
  exact ⟨_, _, r₃, hstart, hexec, hnow, htwo, hload⟩

end Run

end TakBench
