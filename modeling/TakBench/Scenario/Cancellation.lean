import TakBench.Protocol.Reference
import TakBench.Scenario.Run

/-!
# Events after cancellation

A sender enters its `select!` when it starts and after each event. If stop or the deadline is up by
then, it should send nothing more. But a tick that became due during a long write is ready as well,
and the `select!` may take it. So nothing more is sent for sure exactly when no tick is due at the
moment at which the `select!` is entered.

## Main definitions

* `Run.IsOver`: stop or the deadline is up
* `Run.Enters`: a sender enters its `select!`
* `Run.Polls`: a `select!` that is ready is polled before time passes
* `Run.NoWorkload`: a task makes no event and writes nothing

## Main results

* `Run.cancelled_step`: a cancelled task stays cancelled
* `Run.no_workload_iff`: what may be sent after a `select!` is entered
-/

namespace TakBench

variable {P : Platform} {config : AppConfig}

/-- Is an event made, or are bytes written? -/
def Effect.isWorkload : Effect → Bool
  | .generate _ | .write _ => true
  | _ => false

/-- Bytes written. -/
def Effect.written : Effect → ℕ
  | .write bytes => bytes.length
  | _ => 0

theorem Effect.Quiet.isWorkload {e : Effect} (h : e.Quiet) : e.isWorkload = false := by
  cases e with
  | generate id => exact h.elim
  | write bytes => exact h.elim
  | _ => rfl

theorem Effect.CountsEvents.isWorkload {e : Effect} (h : e.CountsEvents) :
    e.isWorkload = false := by
  cases e with
  | add counter n => rfl
  | _ => exact h.elim

/-- A sender that selects while no tick is due can only leave its loop. -/
theorem Sender.eq_leave {participant : ParticipantConfig} {w : World} {s s' : Sender}
    {a : SenderAct} {out : List Effect} (hphase : s.phase = .selecting)
    (hnext : w.now < s.nextTick) (h : s.step P participant config w a = some (s', out)) :
    (s', out) = s.leave := by
  cases steps_of_step h with
  | tick utc id _ hdue hp => exact absurd hdue (Nat.not_le.mpr hnext)
  | stopped _ hstop hp => exact hp
  | deadline _ hdue hp => exact hp
  | flush a write next outcome bytes hother hwrite hp => cases hphase.symm.trans hother
  | frame a write outcome bytes hother hwrite hp => cases hphase.symm.trans hother
  | publish next hother hp => cases hphase.symm.trans hother

namespace Run

/-- Has stop been signalled to the tasks, or has the deadline of the run passed? -/
def IsOver (config : AppConfig) (r : Run) : Prop :=
  r.world.stop = true ∨ config.run.duration ≤ r.world.now

/-- The sender of a task that is alive. -/
def sender? (r : Run) (i : ℕ) : Option Sender := r.tasks[i]?.bind fun task => task.state.sender?

/-- The sender of a task starts, or comes back to its `select!`. -/
def Enters (i : ℕ) (act : RunAct) (r' : Run) : Prop :=
  ((∃ a, act = .task i (.session (.barrier a))) ∨ ∃ a, act = .task i (.session (.sender a))) ∧
    ∃ s, r'.sender? i = some s ∧ s.phase = .selecting

/-- A `select!` of the sender of a task that is ready since stop or the deadline is up, is polled
before time passes. -/
def Polls (config : AppConfig) (i : ℕ) (r : Run) : RunAct → Prop
  | .elapse d => 0 < d → r.IsOver config → ∀ s, r.sender? i = some s → s.phase ≠ .selecting
  | _ => True

/-- Between two states of a run, a task makes no event and writes nothing. -/
def NoWorkload (i : ℕ) (r r' : Run) : Prop :=
  ∃ task task' out, r.tasks[i]? = some task ∧ r'.tasks[i]? = some task' ∧
    task'.log = task.log ++ out ∧ ∀ e ∈ out, e.isWorkload = false

/-- A task that is cancelled: its sender, if it is alive, selects, and no tick is due. -/
structure Cancelled (config : AppConfig) (i : ℕ) (r : Run) : Prop where
  isOver : r.IsOver config
  selecting : ∀ s, r.sender? i = some s → s.phase = .selecting ∧ r.world.now < s.nextTick

variable {r r' r'' : Run} {act : RunAct} {i : ℕ}

theorem isOver_step (hr : r.IsOver config) (h : r.step P config act = some r') :
    r'.IsOver config := by
  rcases hr with hstop | hdeadline
  · exact .inl (stop_step hstop h)
  · right
    rcases step_cases h with ⟨j, a, task, state, effects, -, -, -, rfl⟩ | ⟨-, hidle⟩
    · rw [advance, World.applyAll_now]
      exact hdeadline
    · exact hdeadline.trans hidle.now

/-! ## Cancelled tasks -/

theorem sender?_of_getElem? {task : Task} (hget : r.tasks[i]? = some task) :
    r.sender? i = task.state.sender? := by
  rw [sender?, hget]
  rfl

theorem getElem?_advance {task : Task} {state : Participant} {effects : List Effect}
    (hget : r.tasks[i]? = some task) :
    (r.advance i task state effects).tasks[i]? =
      some { task with state, log := task.log ++ effects } :=
  List.getElem?_set_self (List.getElem?_eq_some_iff.mp hget).1

theorem NoWorkload.refl {task : Task} (hget : r.tasks[i]? = some task) : NoWorkload i r r :=
  ⟨task, task, [], hget, hget, (List.append_nil _).symm, by simp⟩

theorem NoWorkload.trans (h : NoWorkload i r r') (h' : NoWorkload i r' r'') :
    NoWorkload i r r'' := by
  obtain ⟨task, task', out, hget, hget', hlog, hout⟩ := h
  obtain ⟨task₁, task₂, out', hget₁, hget₂, hlog', hout'⟩ := h'
  obtain rfl := Option.some.inj (hget'.symm.trans hget₁)
  refine ⟨task, task₂, out ++ out', hget, hget₂, ?_, ?_⟩
  · rw [hlog', hlog, List.append_assoc]
  · intro e he
    exact (List.mem_append.mp he).elim (hout e) (hout' e)

theorem NoWorkload.exists_task (h : NoWorkload i r r') : ∃ task, r'.tasks[i]? = some task := by
  obtain ⟨-, task', -, -, hget', -⟩ := h
  exact ⟨task', hget'⟩

/-- What a step does to the sender of a task that is cancelled. -/
theorem cancelled_participant {participant : ParticipantConfig} {w : World}
    {p p' : Participant} {a : ParticipantAct} {out : List Effect}
    (hselecting : ∀ s, p.sender? = some s → s.phase = .selecting ∧ w.now < s.nextTick)
    (h : p.step P participant config w a = some (p', out)) :
    (∀ s, p'.sender? = some s → s.phase = .selecting ∧ w.now < s.nextTick) ∧
      ∀ e ∈ out, e.isWorkload = false := by
  rcases Participant.sender_cases h with ⟨s, s', a, rfl, hs, hstep, hs', -⟩ |
    ⟨interval, -, -, -, -, hpos, hs', -, rfl⟩ | ⟨s, -, -, hs', -, rfl⟩ | ⟨-, hsame, -, hquiet⟩
  · -- the sender leaves its loop
    obtain ⟨hphase, hnext⟩ := hselecting s hs
    obtain ⟨rfl, rfl⟩ := Prod.mk.inj (Sender.eq_leave hphase hnext hstep)
    refine ⟨fun alive halive => ?_, fun e he => ?_⟩
    · cases hs'.symm.trans halive
    · exact (s.keeps_leave.effects e he).isWorkload
  · -- a new sender waits for its first tick
    refine ⟨fun alive halive => ?_, by simp⟩
    obtain rfl := Option.some.inj (hs'.symm.trans halive)
    exact ⟨rfl, Nat.lt_add_of_pos_right hpos⟩
  · refine ⟨fun alive halive => ?_, by simp⟩
    cases hs'.symm.trans halive
  · rw [hsame]
    exact ⟨hselecting, fun e he => (hquiet e he).isWorkload⟩

/-- **A cancelled task stays cancelled**, and makes no event. -/
theorem cancelled_step {task : Task} (hr : r.Cancelled config i)
    (hget : r.tasks[i]? = some task) (hpolls : r.Polls config i act)
    (h : r.step P config act = some r') : r'.Cancelled config i ∧ NoWorkload i r r' := by
  have hover := isOver_step hr.isOver h
  rcases step_cases h with ⟨j, a, task', state, effects, rfl, hget', hstep, rfl⟩ | ⟨-, hidle⟩
  · have hnow : (r.advance j task' state effects).world.now = r.world.now :=
      World.applyAll_now _ _
    by_cases hij : j = i
    · -- a step of the task itself
      subst hij
      obtain rfl := Option.some.inj (hget.symm.trans hget')
      have hselecting := hr.selecting
      rw [sender?_of_getElem? hget] at hselecting
      obtain ⟨hselecting', hout⟩ := cancelled_participant hselecting hstep
      refine ⟨⟨hover, ?_⟩, task, _, effects, hget, getElem?_advance hget, rfl, hout⟩
      rw [hnow, sender?_of_getElem? (getElem?_advance hget)]
      exact hselecting'
    · -- the clock is not set by a task, so another one changes nothing here
      have hsame : (r.advance j task' state effects).tasks[i]? = some task :=
        (List.getElem?_set_ne hij).trans hget
      refine ⟨⟨hover, ?_⟩, task, task, [], hget, hsame, (List.append_nil _).symm, by simp⟩
      rw [hnow, sender?_of_getElem? hsame, ← sender?_of_getElem? hget]
      exact hr.selecting
  · have hsame : r'.tasks[i]? = some task := by rw [hidle.tasks, hget]
    refine ⟨⟨hover, fun s hs => ?_⟩, task, task, [], hget, hsame, (List.append_nil _).symm,
      by simp⟩
    rw [sender?_of_getElem? hsame, ← sender?_of_getElem? hget] at hs
    obtain ⟨hphase, hnext⟩ := hr.selecting s hs
    refine ⟨hphase, ?_⟩
    by_cases helapse : ∃ d, act = .elapse d
    · -- time does not pass while the sender selects
      obtain ⟨d, rfl⟩ := helapse
      have hzero : d = 0 := by
        by_contra hne
        exact hpolls (Nat.pos_of_ne_zero hne) hr.isOver s hs hphase
      subst hzero
      obtain rfl := Option.some.inj h
      exact hnext
    · rw [now_step (fun d hd => helapse ⟨d, hd⟩) h]
      exact hnext

/-- A run from a state in which a task is cancelled. -/
theorem cancelled_exec {task : Task} {acts : List RunAct} (hr : r.Cancelled config i)
    (hget : r.tasks[i]? = some task)
    (hpolls : (machine P config).Along (Polls config i) r acts)
    (h : (machine P config).exec r acts = some r') : NoWorkload i r r' := by
  have hrun : r'.Cancelled config i ∧ NoWorkload i r r' := by
    refine Machine.exec_invariant_along (m := machine P config)
      (I := fun r' => r'.Cancelled config i ∧ NoWorkload i r r') ?_ hpolls
      ⟨hr, NoWorkload.refl hget⟩ h
    rintro s a t ⟨hs, hquiet⟩ hpolls hstep
    obtain ⟨task', hget'⟩ := hquiet.exists_task
    obtain ⟨ht, hquiet'⟩ := cancelled_step hs hget' hpolls hstep
    exact ⟨ht, hquiet.trans hquiet'⟩
  exact hrun.2

/-! ## A tick that is due -/

/-- A sender that selects may take a tick that is due. -/
theorem exists_tick (config : AppConfig) (participant : ParticipantConfig) {w : World}
    {p : Participant} {s : Sender} (hs : p.sender? = some s) (hphase : s.phase = .selecting)
    (hdue : s.nextTick ≤ w.now) :
    ∃ p' out, p.step P participant config w (.session (.sender (.tick 0 0))) = some (p', out) ∧
      .generate (s.eventId config 0) ∈ out := by
  obtain ⟨phase, attempt, recoveryStarted⟩ := p
  cases phase with
  | connected session =>
    cases session with
    | sending sender reader =>
      obtain rfl := Option.some.inj hs
      have htick : sender.step P participant config w (.tick 0 0) =
          some (sender.tick P participant config w.now 0 0) := by
        simp only [Sender.step, hphase, hdue, if_true]
      refine ⟨⟨.connected (Session.afterSender reader
        (sender.tick P participant config w.now 0 0).1), attempt, recoveryStarted⟩,
        (sender.tick P participant config w.now 0 0).2, ?_, List.mem_cons_self⟩
      simp only [Participant.step, Session.step, htick, Option.map_some]
      rfl
    | _ => cases hs
  | _ => cases hs

/-- **What is sent after cancellation**: when a sender enters its `select!` with stop or the
deadline up, its task sends nothing more, whatever happens, exactly when no tick is due. -/
theorem no_workload_iff (h : r.step P config act = some r') (hover : r.IsOver config)
    (henters : Enters i act r') :
    (∀ acts r'', (machine P config).exec r' acts = some r'' →
      (machine P config).Along (Polls config i) r' acts → NoWorkload i r' r'') ↔
    ∀ s, r'.sender? i = some s → r'.world.now < s.nextTick := by
  obtain ⟨-, s, hs, hphase⟩ := henters
  obtain ⟨task, hget, hsender⟩ := Option.bind_eq_some_iff.mp hs
  constructor
  · -- a tick that is due may be taken, and makes an event
    intro hnothing alive halive
    obtain rfl := Option.some.inj (hs.symm.trans halive)
    by_contra hdue
    obtain ⟨p', out, hstep, hmade⟩ := exists_tick (P := P) config
      task.participant hsender hphase (Nat.not_lt.mp hdue)
    have htick : (machine P config).step r' (.task i (.session (.sender (.tick 0 0)))) =
        some (r'.advance i task p' out) := by
      simp only [machine, step, hget, hstep, Option.map_some]
    obtain ⟨task₁, task₂, rest, hget₁, hget₂, hlog, hrest⟩ :=
      hnothing [.task i (.session (.sender (.tick 0 0)))] _ (Machine.exec_step htick rfl)
        ((Machine.along_cons htick).mpr ⟨trivial, trivial⟩)
    obtain rfl := Option.some.inj (hget.symm.trans hget₁)
    obtain rfl := Option.some.inj ((getElem?_advance hget).symm.trans hget₂)
    obtain rfl := List.append_cancel_left hlog
    cases hrest _ hmade
  · intro hnext acts r'' hexec hpolls
    refine cancelled_exec ⟨isOver_step hover h, ?_⟩ hget hpolls hexec
    intro alive halive
    obtain rfl := Option.some.inj (hs.symm.trans halive)
    exact ⟨hphase, hnext s hs⟩

/-! ## A long write -/

namespace LongWrite

/-- A participant that only sends. -/
def peer : ParticipantConfig := { id := "peer", role := .sendOnly }

/-- Two seconds with a malformed event in each second. -/
def hasty : AppConfig where
  authorization := { acknowledged := true }
  run := { duration := Duration.fromSecs 2, gpsInterval := Duration.fromSecs 1 }
  participants := [peer]
  scenario := { invalid := { enabled := true, kind := some .malformedXml, maxEvents := some 10 } }

/-- The first event is made and written, and the flush takes a while. -/
def writing (rest : List RunAct) : List RunAct :=
  [.task 0 .start, .task 0 .delayOver, .task 0 .enterLoop, .task 0 (.connected 0),
    .task 0 .sampled, .task 0 (.session (.barrier .check)), .elapse (Duration.fromSecs 1),
    .task 0 (.session (.sender (.tick 0 7))),
    .task 0 (.session (.sender (.write (.wrote 6))))] ++ rest ++
    [.task 0 (.session (.sender (.write .flushed)))]

/-- The flush is over after the deadline. -/
def expired : List RunAct := writing [.elapse 1500000000]

/-- The run is stopped during the flush. -/
def stopped : List RunAct := writing [.stop, .forward]

/-- The batch is published, and the sender comes back to its `select!`. -/
def published : RunAct := .task 0 (.session (.sender .published))

/-- The tick is taken that was due during the flush. -/
def late : List RunAct :=
  [.task 0 (.session (.sender (.tick 0 8))), .task 0 (.session (.sender (.write (.wrote 6))))]

/-- What can be seen of a run: the time, the stop signal, when the sender that selects makes the
next event, and the events made and bytes written so far. -/
def observe (r : Run) : Instant × Bool × Option Instant × List (ℕ × ℕ) :=
  (r.world.now, r.world.stop,
    (r.sender? 0).bind fun s => match s.phase with
      | .selecting => some s.nextTick
      | _ => none,
    r.tasks.map fun task => (total Effect.generated task.log, total Effect.written task.log))

/-- What is seen after some steps of a run. -/
def after (acts : List RunAct) : Option (Instant × Bool × Option Instant × List (ℕ × ℕ)) :=
  ((machine Reference.platform hasty).exec (spawn hasty [0] false) acts).map observe

theorem enters_published {r : Run} {nextTick : Instant} (h : (observe r).2.2.1 = some nextTick) :
    Enters 0 published r ∧ ∀ s, r.sender? 0 = some s → s.nextTick = nextTick := by
  obtain ⟨s, hs, hnext⟩ := Option.bind_eq_some_iff.mp h
  have hphase : s.phase = .selecting ∧ s.nextTick = nextTick := by
    split at hnext
    · next hphase => exact ⟨hphase, Option.some.inj hnext⟩
    · cases hnext
  refine ⟨⟨.inr ⟨_, rfl⟩, s, hs, hphase.1⟩, fun alive halive => ?_⟩
  obtain rfl := Option.some.inj (hs.symm.trans halive)
  exact hphase.2

/-- A run in which the sender comes back to its `select!`, and what is seen of it before, then, and
after some more steps. -/
theorem exists_published {acts rest : List RunAct}
    {a b c : Instant × Bool × Option Instant × List (ℕ × ℕ)} (ha : after acts = some a)
    (hb : after (acts ++ [published]) = some b) (hc : after (acts ++ published :: rest) = some c) :
    ∃ r r' r'', (machine Reference.platform hasty).exec (spawn hasty [0] false) acts = some r ∧
      r.step Reference.platform hasty published = some r' ∧
      (machine Reference.platform hasty).exec r' rest = some r'' ∧
      observe r = a ∧ observe r' = b ∧ observe r'' = c := by
  obtain ⟨r, hr, rfl⟩ := Option.map_eq_some_iff.mp ha
  obtain ⟨r', hr', rfl⟩ := Option.map_eq_some_iff.mp hb
  obtain ⟨r'', hr'', rfl⟩ := Option.map_eq_some_iff.mp hc
  obtain ⟨u, hu, hlast⟩ := Machine.exists_of_exec_append hr'
  obtain rfl := Option.some.inj (hr.symm.trans hu)
  obtain ⟨v, hstep, hend⟩ := Machine.exec_cons.mp hlast
  obtain rfl := Option.some.inj hend
  obtain ⟨x, hx, hmore⟩ := Machine.exists_of_exec_append hr''
  obtain rfl := Option.some.inj (hr.symm.trans hx)
  obtain ⟨y, hy, hrest⟩ := Machine.exec_cons.mp hmore
  obtain rfl := Option.some.inj (hstep.symm.trans hy)
  exact ⟨r, v, r'', hr, hstep, hrest, rfl, rfl, rfl⟩

end LongWrite

/-- A run that is stopped during a flush: no tick is due, and nothing more is sent. -/
theorem no_workload_iff_stopped :
    ∃ r r', (machine Reference.platform LongWrite.hasty).exec (spawn LongWrite.hasty [0] false)
        LongWrite.stopped = some r ∧
      r.step Reference.platform LongWrite.hasty LongWrite.published = some r' ∧
      ∀ acts r'', (machine Reference.platform LongWrite.hasty).exec r' acts = some r'' →
        (machine Reference.platform LongWrite.hasty).Along (Polls LongWrite.hasty 0) r' acts →
          NoWorkload 0 r' r'' := by
  have hflushed : LongWrite.after LongWrite.stopped =
      some (1000000000, true, none, [(1, 6)]) := by decide +kernel
  have hpublished : LongWrite.after (LongWrite.stopped ++ [LongWrite.published]) =
      some (1000000000, true, some 2000000000, [(1, 6)]) := by decide +kernel
  obtain ⟨r, r', -, hexec, hstep, -, hr, hr', -⟩ :=
    LongWrite.exists_published hflushed hpublished hpublished
  obtain ⟨henters, hnext⟩ := LongWrite.enters_published (congrArg (·.2.2.1) hr')
  have hover : r.IsOver LongWrite.hasty := .inl (congrArg (·.2.1) hr)
  refine ⟨r, r', hexec, hstep, (no_workload_iff hstep hover henters).mpr ?_⟩
  intro s hs
  have hnow : r'.world.now = 1000000000 := congrArg (·.1) hr'
  rw [hnow, hnext s hs]
  decide

/-- A run of an accepted configuration in which a sender comes back to its `select!` after the
deadline, and then makes and writes one event more. -/
theorem workload_after_deadline :
    start LongWrite.hasty 0 (fun _ delays => delays) {} false =
        .ok (spawn LongWrite.hasty [0] false) ∧
      ∃ r r' r'' task task', (machine Reference.platform LongWrite.hasty).exec
          (spawn LongWrite.hasty [0] false) LongWrite.expired = some r ∧
        r.step Reference.platform LongWrite.hasty LongWrite.published = some r' ∧
        r.IsOver LongWrite.hasty ∧ Enters 0 LongWrite.published r' ∧
        (machine Reference.platform LongWrite.hasty).exec r' LongWrite.late = some r'' ∧
        (machine Reference.platform LongWrite.hasty).Along (Polls LongWrite.hasty 0) r'
          LongWrite.late ∧
        r'.tasks = [task] ∧ r''.tasks = [task'] ∧
        total Effect.generated task.log = 1 ∧ total Effect.generated task'.log = 2 ∧
        total Effect.written task.log = 6 ∧ total Effect.written task'.log = 12 := by
  have hflushed : LongWrite.after LongWrite.expired =
      some (2500000000, false, none, [(1, 6)]) := by decide +kernel
  have hpublished : LongWrite.after (LongWrite.expired ++ [LongWrite.published]) =
      some (2500000000, false, some 2000000000, [(1, 6)]) := by decide +kernel
  have hlate : LongWrite.after (LongWrite.expired ++ LongWrite.published :: LongWrite.late) =
      some (2500000000, false, none, [(2, 12)]) := by decide +kernel
  obtain ⟨r, r', r'', hexec, hstep, hrest, hr, hr', hr''⟩ :=
    LongWrite.exists_published hflushed hpublished hlate
  have hover : r.IsOver LongWrite.hasty := by
    have hnow : r.world.now = 2500000000 := congrArg (·.1) hr
    right
    rw [hnow]
    decide
  obtain ⟨task, htasks, htask⟩ := List.map_eq_singleton_iff.mp (congrArg (·.2.2.2) hr')
  obtain ⟨task', htasks', htask'⟩ := List.map_eq_singleton_iff.mp (congrArg (·.2.2.2) hr'')
  obtain ⟨hmade, hwritten⟩ := Prod.mk.inj htask
  obtain ⟨hmade', hwritten'⟩ := Prod.mk.inj htask'
  have hpolls : (machine Reference.platform LongWrite.hasty).Along (Polls LongWrite.hasty 0) r'
      LongWrite.late := Machine.along_of_forall (by simp [LongWrite.late, Polls])
  have hstart : start LongWrite.hasty 0 (fun _ delays => delays) {} false =
      .ok (spawn LongWrite.hasty [0] false) := rfl
  have henters := (LongWrite.enters_published (congrArg (·.2.2.1) hr')).1
  exact ⟨hstart, r, r', r'', task, task', hexec, hstep, hover, henters, hrest, hpolls, htasks,
    htasks', hmade, hmade', hwritten, hwritten'⟩

end Run

end TakBench
