import Mathlib.Algebra.BigOperators.Ring.List
import TakBench.Scenario.Accounting
import TakBench.Scenario.Ramp

/-!
# The throughput of a run

A participant starts after its delay, its sender makes an event at each tick of the emission
interval, and it counts an event as sent or as dropped only after it has made it. This holds over
all its connections: a new sender waits for a whole interval again. So the metrics count no more
events than fit between the start delays and now, whatever the batches, the writes and the
reconnects; with a maximal rate, the interval is as long as the rate says, up to its rounding.

## Main definitions

* `Sender.PacedFrom`, `Run.PacedAt`: the ticks of a sender and of a task since its delay
* `Task.Books`: what a task has counted and what it still holds, it has made

## Main results

* `Run.generated_le`: the events of one task
* `Run.throughput_bounded`: the events of a run, and the events that its metrics count
-/

namespace TakBench

variable {P : Platform} {participant : ParticipantConfig} {config : AppConfig} {w : World}
  {delay interval : Duration}

/-! ## The emission interval -/

/-- The interval is as long as the rate says, up to half a nanosecond. -/
theorem le_of_emissionInterval {rate : ℚ} (hpos : 0 < rate)
    (hrate : config.run.maxRate = some (.finite rate))
    (h : emissionInterval config = some interval) :
    1000000000 / rate - 1 / 2 ≤ ((interval : ℕ) : ℚ) := by
  simp only [emissionInterval, hrate, F64.recip, if_neg hpos.ne', Option.map_eq_some_iff] at h
  obtain ⟨period, hperiod, rfl⟩ := h
  have hnonneg : (0 : ℚ) ≤ 1 / rate := by positivity
  rw [Duration.fromSecsF64, if_neg (not_lt.mpr hnonneg)] at hperiod
  simp only [Option.ite_none_right_eq_some, Option.some.injEq] at hperiod
  obtain ⟨-, rfl⟩ := hperiod
  have hrounded := (Rounding.halfEven_le_iff (by positivity)).mp
    (Nat.le_refl (Rounding.halfEven (1 / rate * 1000000000)))
  have hle : (1 / rate * 1000000000 : ℚ) ≤
      (Rounding.halfEven (1 / rate * 1000000000) : ℕ) + 1 / 2 :=
    hrounded.elim le_of_lt fun htie => htie.1.le
  have hmax : ((Rounding.halfEven (1 / rate * 1000000000) : ℕ) : ℚ) ≤
      ((Max.max config.run.gpsInterval (Rounding.halfEven (1 / rate * 1000000000)) : ℕ) : ℚ) :=
    by exact_mod_cast le_max_right _ _
  calc 1000000000 / rate - 1 / 2 = 1 / rate * 1000000000 - 1 / 2 := by ring
    _ ≤ (Rounding.halfEven (1 / rate * 1000000000) : ℕ) := by linarith
    _ ≤ _ := hmax

/-! ## The ticks of a task -/

/-- The sender of a task that has made some events since its delay: its next tick is an interval
after each of them. -/
structure Sender.PacedFrom (delay interval : Duration) (made : ℕ) (s : Sender) : Prop where
  interval_eq : s.interval = interval
  next_le : delay + (made + 1) * interval ≤ s.nextTick

/-- The events made fit between the delay and now. -/
def Fits (delay interval : Duration) (made : ℕ) (now : Instant) : Prop :=
  0 < made → delay + made * interval ≤ now

/-- **A step of a paced sender** makes an event only when it is due. -/
theorem Sender.PacedFrom.step {made : ℕ} {s s' : Sender} {act : SenderAct} {out : List Effect}
    (hs : s.PacedFrom delay interval made) (hmade : Fits delay interval made w.now)
    (h : s.step P participant config w act = some (s', out)) :
    s'.PacedFrom delay interval (made + total Effect.generated out) ∧
      Fits delay interval (made + total Effect.generated out) w.now := by
  rcases Sender.step_cases h with ⟨utc, id, rfl, hdue, effects, rfl, hkeeps⟩ |
    ⟨-, hinterval, hnext, -, -, hsends⟩
  · -- a tick is due, and it makes one event
    have hone : total Effect.generated (.generate (s.eventId config id) :: effects) = 1 := by
      rw [total_cons, total_generated_of_sends hkeeps.sends]
      rfl
    have hinterval : s'.interval = s.interval := hkeeps.interval
    have hnext : s'.nextTick = nextTimeout s.nextTick w.now s.interval := hkeeps.nextTick
    rw [hone]
    refine ⟨⟨hinterval.trans hs.interval_eq, ?_⟩, fun _ => hs.next_le.trans hdue⟩
    calc delay + (made + 1 + 1) * interval = delay + (made + 1) * interval + s.interval := by
          rw [hs.interval_eq]
          ring
      _ ≤ s.nextTick + s.interval := Nat.add_le_add_right hs.next_le _
      _ ≤ nextTimeout s.nextTick w.now s.interval := le_nextTimeout _ hdue
      _ = s'.nextTick := hnext.symm
  · -- every other step makes none, and leaves the ticker alone
    rw [total_generated_of_sends hsends, Nat.add_zero]
    exact ⟨⟨hinterval.trans hs.interval_eq, hnext ▸ hs.next_le⟩, hmade⟩

/-- A task is paced since its delay. -/
structure Task.PacedFrom (delay interval : Duration) (now : Instant) (task : Task) : Prop where
  fits : Fits delay interval (total Effect.generated task.log) now
  alive : ∀ s, task.state.sender? = some s →
    s.PacedFrom delay interval (total Effect.generated task.log)

theorem Participant.isConnected_of_mayStart {p : Participant} (h : p.mayStart = true) :
    p.isConnected = true := by
  obtain ⟨phase, attempt, recoveryStarted⟩ := p
  cases phase with
  | sampling | marking | notifying | connected => rfl
  | _ => cases h

/-- **A step of a task keeps its pace**, if it has waited for its delay. -/
theorem Task.PacedFrom.step {task : Task} {act : ParticipantAct} {state : Participant}
    {out : List Effect} (htask : task.PacedFrom delay interval w.now)
    (hwaited : task.state.isConnected = true → delay ≤ w.now)
    (hinterval : emissionInterval config = some interval)
    (h : task.state.step P task.participant config w act = some (state, out)) :
    Task.PacedFrom delay interval w.now { task with state, log := task.log ++ out } := by
  obtain ⟨participant, p, log⟩ := task
  obtain ⟨hfits, halive⟩ := htask
  simp only at hfits halive hwaited h
  rcases Participant.sender_cases h with ⟨s, s', a, rfl, hs, hstep, hs', -⟩ |
    ⟨interval', -, hmay, -, hinterval', -, hs', -, rfl⟩ | ⟨s, -, -, hs', -, rfl⟩ |
    ⟨-, hsame, -, hquiet⟩
  · -- the sender steps: its ticks count the events of the task
    obtain ⟨hpaced, hmade⟩ := (halive s hs).step hfits hstep
    rw [← total_append] at hpaced hmade
    refine ⟨hmade, fun alive hliving => ?_⟩
    obtain rfl := Session.eq_of_alive? (hs'.symm.trans hliving)
    exact hpaced
  · -- a new sender starts on a new connection, an interval before its first event
    obtain rfl := Option.some.inj (hinterval.symm.trans hinterval')
    rw [List.append_nil]
    refine ⟨hfits, fun alive hliving => ?_⟩
    obtain rfl := Option.some.inj (hs'.symm.trans hliving)
    have hnow : delay + total Effect.generated log * interval ≤ w.now := by
      rcases Nat.eq_zero_or_pos (total Effect.generated log) with hzero | hpos
      · rw [hzero, Nat.zero_mul]
        exact hwaited (Participant.isConnected_of_mayStart hmay)
      · exact hfits hpos
    refine ⟨rfl, ?_⟩
    rw [Nat.succ_mul, ← Nat.add_assoc]
    exact Nat.add_le_add_right hnow interval
  · -- the sender is dropped where it stands
    rw [List.append_nil]
    exact ⟨hfits, fun alive hliving => nomatch hs'.symm.trans hliving⟩
  · -- nothing is made
    have htotal : total Effect.generated (log ++ out) = total Effect.generated log := by
      rw [total_append, (total_eq_zero_of_quiet hquiet).1, Nat.add_zero]
    refine ⟨htotal ▸ hfits, fun alive hliving => ?_⟩
    rw [htotal]
    exact halive alive (hsame ▸ hliving)

/-! ## The books of a task -/

/-- What a task has counted, and what its sender still holds, it has made. -/
def Task.Books (task : Task) : Prop :=
  total Effect.sent task.log + total Effect.dropped task.log +
    task.state.sender?.elim 0 Sender.uncounted ≤ total Effect.generated task.log

theorem uncounted_alive? (s : Sender) :
    (Session.alive? s).elim 0 Sender.uncounted = s.uncounted := by
  rw [Session.alive?]
  split
  · next result hphase => simp [Sender.uncounted, hphase]
  · rfl

theorem Run.books_invariant : TaskInvariant P config (fun _ task => task.Books) where
  spawn w participant delay _ := Nat.zero_le _
  later w w' task _ _ htask := htask
  step w task act state out htask h := by
    unfold Task.Books at htask ⊢
    simp only [total_append]
    rcases Participant.sender_cases h with ⟨s, s', a, rfl, hs, hstep, hs', -⟩ |
      ⟨interval, -, hmay, -, -, -, hs', -, rfl⟩ | ⟨s, -, hs, hs', -, rfl⟩ | ⟨-, hsame, -, hquiet⟩
    · have hbooks := Sender.step_accounts hstep
      rw [hs, Option.elim_some] at htask
      rw [hs', uncounted_alive?]
      omega
    · -- a sender that starts holds nothing
      rw [Participant.sender?_of_mayStart hmay] at htask
      rw [hs']
      exact htask
    · -- a sender that is dropped loses what it holds
      rw [hs, Option.elim_some] at htask
      rw [hs']
      simp only [total_nil, Option.elim_none]
      omega
    · obtain ⟨hgenerated, -, hsent, hdropped⟩ := total_eq_zero_of_quiet hquiet
      rw [hsame]
      omega

/-! ## The events of a run -/

namespace Run

variable {r r' r₀ : Run} {a : RunAct} {acts : List RunAct} {i : ℕ}

/-- The task at an index waits for its delay, and is paced since. -/
def PacedAt (config : AppConfig) (i : ℕ) (delay interval : Duration) (r : Run) : Prop :=
  (∃ dials, r.PacesAt config i delay dials) ∧
    ∃ task, r.tasks[i]? = some task ∧ task.PacedFrom delay interval r.world.now

theorem PacedAt.step (hinterval : emissionInterval config = some interval)
    (hr : r.PacedAt config i delay interval) (h : r.step P config a = some r') :
    r'.PacedAt config i delay interval := by
  obtain ⟨⟨dials, hpaces⟩, task, hi, htask⟩ := hr
  refine ⟨⟨_, hpaces.step h⟩, ?_⟩
  rcases step_cases h with ⟨j, act, other, state, effects, rfl, hget, hstep, rfl⟩ | ⟨-, hidle⟩
  · have hnow : (r.advance j other state effects).world.now = r.world.now :=
      World.applyAll_now _ _
    rw [hnow]
    by_cases hij : j = i
    · subst hij
      obtain rfl := Option.some.inj (hget.symm.trans hi)
      exact ⟨_, List.getElem?_set_self (List.getElem?_eq_some_iff.mp hget).1,
        htask.step (delay_le_of_isConnected hpaces hi) hinterval hstep⟩
    · exact ⟨task, (List.getElem?_set_ne hij).trans hi, htask⟩
  · exact ⟨task, by rw [hidle.tasks, hi],
      fun hpos => (htask.fits hpos).trans hidle.now, htask.alive⟩

/-- **The events of each task** fit between its delay and now. -/
theorem generated_fits {started : ℤ} {shuffle : ℕ → List Duration → List Duration}
    {options : SafetyOptions} {stop : Bool} {delays : List Duration}
    (hshuffle : ∀ seed delays, (shuffle seed delays).Perm delays)
    (hstart : start config started shuffle options stop = .ok r₀)
    (hdelays : startDelays shuffle (participants config).length config.scheduler = .ok delays)
    (hinterval : emissionInterval config = some interval)
    (h : (machine P config).exec r₀ acts = some r) :
    List.Forall₂ (fun log delay => Fits delay interval (total Effect.generated log) r.world.now)
      r.logs delays := by
  have hlengths : delays.length = (participants config).length :=
    length_startDelays hshuffle hdelays
  obtain ⟨delays', hdelays', rfl⟩ := exists_startDelays hstart
  obtain rfl := Except.ok.inj (hdelays.symm.trans hdelays')
  have htasks : r.logs.length = delays.length := by
    rw [logs, List.length_map, length_tasks h, spawn, List.length_map, List.length_zip, hlengths,
      min_self]
  refine List.forall₂_iff_get.mpr ⟨htasks, fun i hlog hdelay => ?_⟩
  have hlt : i < (participants config).length := hlengths ▸ hdelay
  -- the task at the index waits for the delay at the index
  have hspawn : (spawn config delays stop).PacedAt config i delays[i] interval := by
    obtain ⟨task, hi, hwaits⟩ : (spawn config delays stop).PacesAt config i delays[i] [] :=
      pacesAt_spawn (List.getElem?_eq_getElem hlt) (List.getElem?_eq_getElem hdelay)
    obtain ⟨-, hnone, d, hstate⟩ := exists_of_mem_spawn (List.mem_of_getElem? hi)
    refine ⟨⟨[], task, hi, hwaits⟩, task, hi, ?_, fun s hs => ?_⟩
    · rw [hnone]
      exact fun hpos => absurd hpos (by simp)
    · rw [hstate] at hs
      cases hs
  obtain ⟨-, task, hi, hpaced⟩ := Machine.exec_invariant (m := machine P config)
    (fun _ _ _ hr hstep => hr.step hinterval hstep) hspawn h
  obtain ⟨_, rfl⟩ := List.getElem?_eq_some_iff.mp hi
  simpa [logs] using hpaced.fits

/-- What a run has counted, it has made. -/
theorem counted_le_generated (hbooks : ∀ task ∈ r.tasks, task.Books)
    (hlinked : ∀ task ∈ r.tasks, Linked config task) (hr : r.Counted) :
    r.world.counters .sentMessages + r.world.counters .droppedMessages ≤
      sumOver Effect.generated r.logs := by
  have hsent : Effect.added .sentMessages = Effect.sent := by
    funext e
    cases e with
    | add counter n => cases counter <;> simp [Effect.added, Effect.sent]
    | _ => rfl
  have hdropped : Effect.added .droppedMessages = Effect.dropped := by
    funext e
    cases e with
    | add counter n => cases counter <;> simp [Effect.added, Effect.dropped]
    | _ => rfl
  rw [counters_eq_sumOver hlinked hr (by simp), counters_eq_sumOver hlinked hr (by simp), hsent,
    hdropped, sumOver, sumOver, sumOver, ← List.sum_map_add]
  apply List.sum_le_sum
  intro log hlog
  obtain ⟨task, htask, rfl⟩ := List.mem_map.mp hlog
  exact (Nat.le_add_right _ _).trans (hbooks task htask)

/-- **The throughput of a run**: the metrics count no more events than the participants make, and
each participant makes at most one event for each whole interval since its start delay. With a
maximal rate, no more events are made than it allows in that time, up to the rounding of the
interval. -/
theorem throughput_bounded {started : ℤ} {shuffle : ℕ → List Duration → List Duration}
    {options : SafetyOptions} {stop : Bool} {delays : List Duration}
    (hshuffle : ∀ seed delays, (shuffle seed delays).Perm delays)
    (hstart : start config started shuffle options stop = .ok r₀)
    (hdelays : startDelays shuffle (participants config).length config.scheduler = .ok delays)
    (hinterval : emissionInterval config = some interval)
    (h : (machine P config).exec r₀ acts = some r) :
    r.world.counters .sentMessages + r.world.counters .droppedMessages ≤
      sumOver Effect.generated r.logs ∧
    sumOver Effect.generated r.logs ≤
      (delays.map fun delay => (r.world.now - delay) / interval).sum ∧
    ∀ rate, config.run.maxRate = some (.finite rate) →
      (sumOver Effect.generated r.logs : ℚ) * (1000000000 / rate - 1 / 2) ≤
        ((delays.map fun delay => r.world.now - delay).sum : ℕ) := by
  have hfits := generated_fits hshuffle hstart hdelays hinterval h
  have hlinked : ∀ task ∈ r.tasks, Linked config task := linked_invariant.run hstart h
  have haccepted := accepted_of_validateWithOptions (exists_of_mem_start hstart).1
  have hpos : 0 < interval :=
    haccepted.gpsInterval_pos.trans_le (gpsInterval_le_emissionInterval hinterval)
  have hgenerated : sumOver Effect.generated r.logs ≤
      (delays.map fun delay => (r.world.now - delay) / interval).sum := by
    apply List.Forall₂.sum_le_sum
    rw [List.forall₂_map_left_iff, List.forall₂_map_right_iff]
    refine hfits.imp fun log delay hfits => ?_
    rcases Nat.eq_zero_or_pos (total Effect.generated log) with hzero | hmade
    · rw [hzero]
      exact Nat.zero_le _
    · rw [Nat.le_div_iff_mul_le hpos]
      exact Nat.le_sub_of_add_le' (hfits hmade)
  refine ⟨counted_le_generated (books_invariant.run hstart h) hlinked (counted_of_exec hstart h),
    hgenerated, fun rate hrate => ?_⟩
  obtain ⟨q, hq, hqpos⟩ := haccepted.exists_rate hrate
  obtain rfl := F64.finite.inj hq
  have htime : sumOver Effect.generated r.logs * interval ≤
      (delays.map fun delay => r.world.now - delay).sum := by
    refine (Nat.mul_le_mul_right _ hgenerated).trans ?_
    rw [← List.sum_map_mul_right]
    exact List.sum_le_sum fun delay _ => Nat.div_mul_le_self _ _
  calc (sumOver Effect.generated r.logs : ℚ) * (1000000000 / rate - 1 / 2)
      ≤ sumOver Effect.generated r.logs * (interval : ℕ) := by
        gcongr
        exact le_of_emissionInterval hqpos hrate hinterval
    _ ≤ ((delays.map fun delay => r.world.now - delay).sum : ℕ) := by exact_mod_cast htime

/-- The clients of a ramp with a maximal rate below their cadence; the first event of each is
malformed. -/
def throttled : AppConfig :=
  { ramped with
    run := { ramped.run with maxRate := some (.finite (1 / 60)) }
    scenario :=
      { invalid := { enabled := true, kind := some .malformedXml, maxEvents := some 1 } } }

/-- The first client makes an event when its interval is over. -/
def ticking : List RunAct :=
  ramping ++ [.task 0 (.session (.barrier .check)), .elapse (Duration.fromSecs 60),
    .task 0 (.session (.sender (.tick 0 7)))]

/-- The first event of two clients that are started one after the other. -/
theorem throughput_bounded_throttled :
    ∃ r, (machine Reference.platform throttled).exec
        (spawn throttled [0, Duration.fromSecs 10] false) ticking = some r ∧
      sumOver Effect.generated r.logs = 1 ∧
      sumOver Effect.generated r.logs ≤
        ([0, Duration.fromSecs 10].map fun delay =>
          (r.world.now - delay) / Duration.fromSecs 60).sum := by
  have hstart : start throttled 0 (fun _ => id) {} false =
      .ok (spawn throttled [0, Duration.fromSecs 10] false) := by
    have haccepted : validateWithOptions throttled {} = .ok () := by decide +kernel
    exact start_of_accepted haccepted (by decide) (by decide) (by decide) (by decide +kernel)
  have hinterval : emissionInterval throttled = some (Duration.fromSecs 60) := by decide +kernel
  obtain ⟨r, hr, hmade⟩ := Option.map_eq_some_iff.mp (show ((machine Reference.platform
    throttled).exec (spawn throttled [0, Duration.fromSecs 10] false) ticking).map
      (fun r => sumOver Effect.generated r.logs) = some 1 by decide +kernel)
  exact ⟨r, hr, hmade,
    (throughput_bounded (fun _ _ => .refl _) hstart rfl hinterval hr).2.1⟩

end Run

end TakBench
