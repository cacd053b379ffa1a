import TakBench.Names
import TakBench.Runner.Agreement
import TakBench.Scenario.Counters
import TakBench.Scenario.Joining

/-!
# The lifecycle stream

Every task writes its lifecycle events to one stream, and the main task announces the end of the
run. The names of the participants are distinct, so the events of one participant are those of its
task, and these tell the story of its connections: a story is a list of sessions, each of which is
connected, ready and disconnected.

## Main definitions

* `session`: the events of one session
* `emissions`: the events that a log emits
* `Streams`: a stream of the events of some tasks

## Main results

* `Link.sessions`: the events of a story are sessions, the last of which may be open
* `Streams.step`: a step goes on with the stream
* `Execution.lifecycle_grammar`: the stream of an execution
-/

namespace TakBench

variable {T : Telemetry} {P : Platform} {config : AppConfig}

/-! ## The events of a story -/

/-- The participant that an event is about. -/
def LifecycleEvent.participant? : LifecycleEvent → Option String
  | .participantConnected participant => some participant
  | .participantReady participant => some participant
  | .participantDisconnected participant _ => some participant
  | .runCompleted _ => none

/-- The event that an effect emits. -/
def Effect.event? : Effect → Option LifecycleEvent
  | .emit event => some event
  | _ => none

/-- The events that a log emits. -/
def emissions (log : List Effect) : List LifecycleEvent := log.filterMap Effect.event?

@[simp] theorem emissions_append (log log' : List Effect) :
    emissions (log ++ log') = emissions log ++ emissions log' :=
  List.filterMap_append

/-- The events of a session. -/
def session (id : String) (reason : DisconnectReason) : List LifecycleEvent :=
  [.participantConnected id, .participantReady id, .participantDisconnected id reason]

namespace Link

variable {id : String} {link link' : Link} {e : Effect} {log : List Effect}

/-- The events of the session that is open. -/
def announced (id : String) : Link → List LifecycleEvent
  | .connected => [.participantConnected id]
  | .ready | .closed => [.participantConnected id, .participantReady id]
  | _ => []

theorem announced_prefix (link : Link) :
    link.announced id <+: [.participantConnected id, .participantReady id] := by
  cases link <;> simp [announced]

theorem announced_of_isOver (h : link.isOver = true) : link.announced id = [] := by
  cases link <;> first | rfl | cases h

theorem emissions_of_isNeutral {out : List Effect} (h : ∀ e ∈ out, e.IsNeutral) :
    emissions out = [] := by
  rw [emissions, List.filterMap_eq_nil_iff]
  intro e he
  have hneutral := h e he
  cases e with
  | emit event => exact hneutral.elim
  | _ => rfl

/-- An effect goes on with the session that is open, or ends it. -/
theorem announced_of_moves (h : Moves id link e link') :
    link.announced id ++ emissions [e] = link'.announced id ∨
      ∃ reason, link.announced id ++ emissions [e] = session id reason ∧
        link'.announced id = [] := by
  cases h with
  | disconnect reason => exact .inr ⟨reason, rfl, rfl⟩
  | dial hlink =>
    left
    rw [announced_of_isOver (Participant.isOver_of_mayDial hlink)]
    rfl
  | connect hlink => rcases hlink with rfl | rfl <;> exact .inl rfl
  | fail hlink => rcases hlink with rfl | rfl <;> exact .inl rfl
  | failReconnect hlink => rcases hlink with rfl | rfl <;> exact .inl rfl
  | pass hneutral =>
    left
    rw [emissions_of_isNeutral (by simpa using hneutral), List.append_nil]
  | _ => exact .inl rfl

/-- **The events of a story** are sessions, the last of which may be open. -/
theorem sessions (h : (machine id).exec link log = some link') :
    ∃ reasons : List DisconnectReason, link.announced id ++ emissions log =
      reasons.flatMap (session id) ++ link'.announced id := by
  induction log generalizing link with
  | nil =>
    obtain rfl := Option.some.inj h
    exact ⟨[], by simp [emissions]⟩
  | cons e log ih =>
    obtain ⟨next, hstep, hrest⟩ := Machine.exec_cons.mp h
    obtain ⟨reasons, hreasons⟩ := ih hrest
    have hcons : emissions (e :: log) = emissions [e] ++ emissions log :=
      emissions_append [e] log
    rw [hcons, ← List.append_assoc]
    rcases announced_of_moves (moves_of_step hstep) with hopen | ⟨reason, hends, hclosed⟩
    · exact ⟨reasons, by rw [hopen, hreasons]⟩
    · refine ⟨reason :: reasons, ?_⟩
      rw [hclosed, List.nil_append] at hreasons
      rw [hends, hreasons, List.flatMap_cons, List.append_assoc]

/-- The events of a story are about its participant. -/
theorem participant?_of_mem (h : (machine id).exec link log = some link') :
    ∀ event ∈ emissions log, event.participant? = some id := by
  induction log generalizing link with
  | nil =>
    intro event hevent
    cases hevent
  | cons e log ih =>
    obtain ⟨next, hstep, hrest⟩ := Machine.exec_cons.mp h
    intro event hevent
    have hcons : emissions (e :: log) = emissions [e] ++ emissions log :=
      emissions_append [e] log
    rw [hcons, List.mem_append] at hevent
    rcases hevent with hevent | hevent
    · cases moves_of_step hstep with
      | connect | ready | disconnect => exact List.mem_singleton.mp hevent ▸ rfl
      | pass hneutral =>
        rw [emissions_of_isNeutral (by simpa using hneutral)] at hevent
        cases hevent
      | _ => cases hevent
    · exact ih hrest event hevent

end Link

/-! ## The stream of a run -/

theorem World.lifecycle_applyAll (w : World) (out : List Effect) :
    (w.applyAll out).lifecycle = w.lifecycle ++ emissions out := by
  induction out generalizing w with
  | nil => simp [emissions]
  | cons e out ih =>
    have hcons : emissions (e :: out) = emissions [e] ++ emissions out :=
      emissions_append [e] out
    have hfirst : (w.apply e).lifecycle = w.lifecycle ++ emissions [e] := by
      cases e <;> simp [apply, emissions, Effect.event?]
    rw [applyAll_cons, ih, hfirst, hcons, List.append_assoc]

/-- The part of a stream that is about a participant. -/
def about (id : String) (events : List LifecycleEvent) : List LifecycleEvent :=
  events.filter fun event => event.participant? = some id

/-- A stream of the events of some tasks. -/
structure Streams (tasks : List Task) (events : List LifecycleEvent) : Prop where
  named : ∀ event ∈ events, ∃ task ∈ tasks, event.participant? = some task.participant.id
  about : ∀ task ∈ tasks, about task.participant.id events = emissions task.log

/-- A task that has returned has no session open. -/
theorem Participant.isOver_of_result {p : Participant} {link : Link} {dials : ℕ}
    {result : Option (Except Failure Unit)} (h : p.Connects config link dials)
    (hresult : p.result? = some result) (hpanic : result ≠ none) : link.isOver = true := by
  obtain ⟨phase, attempt, recoveryStarted⟩ := p
  cases phase with
  | returned _ => exact h.1
  | panicked => exact absurd (Option.some.inj hresult).symm hpanic
  | connected session =>
    cases session with
    | panicked reader => exact absurd (Option.some.inj hresult).symm hpanic
    | _ => cases hresult
  | _ => cases hresult

/-- A task that is done emits nothing. -/
theorem Participant.isNeutral_of_result {participant : ParticipantConfig} {w : World}
    {p p' : Participant} {act : ParticipantAct} {out : List Effect}
    {result : Option (Except Failure Unit)} (hresult : p.result? = some result)
    (h : p.step P participant config w act = some (p', out)) : ∀ e ∈ out, e.IsNeutral := by
  rcases step_cases h with ⟨session, a, session', -, -, hsession, -⟩ | ⟨hact, -⟩
  · exact fun e he => (Session.step_ofSession hsession e he).isNeutral
  · obtain ⟨phase, attempt, recoveryStarted⟩ := p
    cases phase with
    | returned outcome => cases (step_eq_none (.inl ⟨outcome, rfl⟩)).symm.trans h
    | panicked => cases (step_eq_none (.inr rfl)).symm.trans h
    | connected session =>
      -- only the reader of a panicked session still runs
      cases session with
      | panicked reader =>
        cases act with
        | session a => exact absurd rfl (hact a)
        | _ => simp [step] at h
      | _ => cases hresult
    | _ => cases hresult

namespace Run

variable {r r' : Run} {act : RunAct} {events : List LifecycleEvent}

/-- **A step goes on with the stream**, and a run that is over emits nothing. -/
theorem streams_step (hstreams : Streams r.tasks events) (hr : r.Distinct)
    (hlinked : ∀ task ∈ r.tasks, Linked config task) (h : r.step P config act = some r') :
    ∃ more, r'.world.lifecycle = r.world.lifecycle ++ more ∧ Streams r'.tasks (events ++ more) ∧
      ((∀ task ∈ r.tasks, ∃ result, task.state.result? = some result) → more = []) := by
  rcases step_cases h with ⟨i, a, task, state, out, rfl, hget, hstep, rfl⟩ | ⟨-, hidle⟩
  · have htask := List.mem_of_getElem? hget
    have hlt : i < r.tasks.length := (List.getElem?_eq_some_iff.mp hget).1
    -- the effects of the step are about the participant of the task
    have hout : ∀ event ∈ emissions out, event.participant? = some task.participant.id := by
      obtain ⟨link, -, hconnects⟩ := hlinked task htask
      obtain ⟨link', hexec, -⟩ := Participant.connects_step hstep hconnects
      exact Link.participant?_of_mem hexec
    refine ⟨emissions out, World.lifecycle_applyAll _ _, ⟨?_, ?_⟩, ?_⟩
    · intro event hevent
      rcases List.mem_append.mp hevent with hevent | hevent
      · obtain ⟨other, hother, hname⟩ := hstreams.named event hevent
        obtain ⟨j, hj⟩ := List.mem_iff_getElem?.mp hother
        by_cases hij : i = j
        · subst hij
          obtain rfl := Option.some.inj (hget.symm.trans hj)
          exact ⟨_, List.mem_set hlt _, hname⟩
        · refine ⟨other, List.mem_of_getElem? (i := j) ?_, hname⟩
          rw [advance, List.getElem?_set_ne hij, hj]
      · exact ⟨_, List.mem_set hlt _, hout event hevent⟩
    · intro other hother
      obtain ⟨j, hj⟩ := List.mem_iff_getElem?.mp hother
      rw [about, List.filter_append]
      by_cases hij : i = j
      · -- the task itself emits all of them
        subst hij
        rw [advance, List.getElem?_set_self hlt] at hj
        obtain rfl := (Option.some.inj hj).symm
        have hall : (emissions out).filter
            (fun event => event.participant? = some task.participant.id) = emissions out :=
          List.filter_eq_self.mpr fun event hevent => decide_eq_true (hout event hevent)
        rw [hall, emissions_append]
        exact congrArg (· ++ emissions out) (hstreams.about task htask)
      · -- and another task none
        rw [advance, List.getElem?_set_ne hij] at hj
        have hne : task.participant.id ≠ other.participant.id :=
          fun hid => hij (hr.eq_of_id_eq hget hj hid)
        have hnone : (emissions out).filter
            (fun event => event.participant? = some other.participant.id) = [] := by
          rw [List.filter_eq_nil_iff]
          intro event hevent
          rw [hout event hevent]
          simpa using hne
        rw [hnone, List.append_nil]
        exact hstreams.about other (List.mem_of_getElem? hj)
    · intro hdone
      obtain ⟨result, hresult⟩ := hdone task htask
      exact Link.emissions_of_isNeutral (Participant.isNeutral_of_result hresult hstep)
  · refine ⟨[], by rw [hidle.lifecycle, List.append_nil], ?_, fun _ => rfl⟩
    rw [hidle.tasks, List.append_nil]
    exact hstreams

theorem streams_spawn (delays : List Duration) (stop : Bool) :
    Streams (spawn config delays stop).tasks [] where
  named event hevent := by cases hevent
  about task htask := by
    rw [(exists_of_mem_spawn htask).2.1]
    rfl

end Run

/-! ## The stream of an execution -/

namespace Execution

variable {e e' e₀ : Execution} {act : ExecutionAct} {acts : List ExecutionAct}

/-- The announcement of the end, once it is made. -/
def ended (e : Execution) : List LifecycleEvent :=
  match e.main with
  | .returned execution => [.runCompleted execution.report.status.completion]
  | _ => []

theorem ended_of_returned {execution : RunExecution} (h : e.main = .returned execution) :
    e.ended = [.runCompleted execution.report.status.completion] := by
  rw [ended, h]

theorem ended_of_not_returned (h : ∀ execution, e.main ≠ .returned execution) : e.ended = [] := by
  rw [ended]
  split
  · next execution hmain => exact absurd hmain (h execution)
  · rfl

theorem ended_congr (h : ∀ execution, e'.main = .returned execution ↔
    e.main = .returned execution) : e'.ended = e.ended := by
  by_cases hreturned : ∃ execution, e.main = .returned execution
  · obtain ⟨execution, hmain⟩ := hreturned
    rw [ended_of_returned hmain, ended_of_returned ((h execution).mpr hmain)]
  · rw [not_exists] at hreturned
    rw [ended_of_not_returned hreturned,
      ended_of_not_returned fun execution hmain => hreturned execution ((h execution).mp hmain)]

/-- The stream of an execution: the events of its tasks, and the announcement of the end. -/
def Announces (config : AppConfig) (e : Execution) : Prop :=
  match e.scenario with
  | .failed _ world => world.lifecycle = e.ended
  | .running run => run.Distinct ∧ (∀ task ∈ run.tasks, Linked config task) ∧ run.JoinedDone ∧
      ∃ events, run.world.lifecycle = events ++ e.ended ∧ Streams run.tasks events

/-- Once the end is announced, all tasks are done. -/
theorem done_of_ended {run : Run} (hconcludes : e.Concludes config)
    (hs : e.scenario = .running run) (hjoined : run.JoinedDone) (hended : e.ended ≠ []) :
    ∀ task ∈ run.tasks, ∃ result, task.state.result? = some result := by
  obtain ⟨execution, hmain⟩ : ∃ execution, e.main = .returned execution := by
    by_contra hnone
    exact hended (ended_of_not_returned (not_exists.mp hnone))
  rw [Concludes, hmain] at hconcludes
  obtain ⟨outcome, -, -, ⟨houtcome, -⟩, -⟩ := hconcludes
  rw [hs, Scenario.outcome?] at houtcome
  split at houtcome
  · next hreturned =>
    rw [Run.JoinedDone, hreturned] at hjoined
    intro task htask
    obtain ⟨result, hresult, -⟩ := hjoined task htask
    exact ⟨result, hresult⟩
  · cases houtcome

/-- **A step of an execution goes on with the stream.** -/
theorem announces_step (hconcludes : e.Concludes config) (he : e.Announces config)
    (h : e.step T P config act = some e') : e'.Announces config := by
  cases scenario_cases h with
  | steps run run' a hs hstep hs' hmain =>
    have hended : e'.ended = e.ended := ended_congr fun _ => by rw [hmain]
    rw [Announces, hs] at he
    obtain ⟨hdistinct, hlinked, hjoined, events, hevents, hstreams⟩ := he
    obtain ⟨more, hmore, hstreams', hsilent⟩ := Run.streams_step hstreams hdistinct hlinked hstep
    rw [Announces, hs', hended]
    refine ⟨?_, Run.linked_invariant.run_step hlinked hstep, Run.joinedDone_step hjoined hstep,
      events ++ more, ?_, hstreams'⟩
    · rw [Run.Distinct, Run.ids_step hstep]
      exact hdistinct
    · -- once the end is announced, all tasks are done and silent
      by_cases hnone : e.ended = []
      · rw [hmore, hevents, hnone, List.append_nil, List.append_nil]
      · rw [hmore, hevents, hsilent (done_of_ended hconcludes hs hjoined hnone),
          List.append_nil, List.append_nil]
  | elapses error world d hs hs' hmain =>
    have hended : e'.ended = e.ended := ended_congr fun _ => by rw [hmain]
    rw [Announces, hs] at he
    rw [Announces, hs', hended]
    exact he
  | reports outcome threshold loading metrics hmain hmetrics hs' hmain' =>
    -- the stream is open up to this step, which announces the end
    have hnone : e.ended = [] := ended_of_not_returned fun execution => by simp [hmain]
    rw [Announces, hnone] at he
    rw [Announces, hs', ended_of_returned hmain']
    cases hs : e.scenario with
    | failed error world =>
      rw [hs] at he
      exact congrArg (· ++ _) he
    | running run =>
      rw [hs] at he
      obtain ⟨hdistinct, hlinked, hjoined, events, hevents, hstreams⟩ := he
      rw [List.append_nil] at hevents
      exact ⟨hdistinct, hlinked, hjoined, events, congrArg (· ++ _) hevents, hstreams⟩
  | same hs hmain =>
    rw [Announces, hs, ended_congr hmain]
    exact he

theorem announces_start {started : ℤ} {shuffle : ℕ → List Duration → List Duration}
    {options : SafetyOptions} {stop : Bool}
    (hstart : start config started shuffle options stop = .ok e₀) :
    e₀.Announces config ∧ e₀.Concludes config := by
  obtain ⟨haccepted, _, rfl, ⟨error, rfl⟩ | ⟨run, hrun, rfl⟩⟩ := exists_of_start hstart
  · exact ⟨rfl, trivial⟩
  · obtain ⟨-, delays, rfl⟩ := Run.exists_of_mem_start hrun
    have hnodup := (accepted_of_validateWithOptions haccepted).nodup_ids
    exact ⟨⟨Run.distinct_spawn hnodup, Run.linked_spawn delays stop,
      Run.joinedDone_spawn delays stop, [], rfl, Run.streams_spawn delays stop⟩, trivial⟩

/-- The stream of an execution. -/
def stream (e : Execution) : List LifecycleEvent := e.scenario.world.lifecycle

/-- No task of the scenario has panicked. -/
def NoPanic (e : Execution) : Prop :=
  ∀ run, e.scenario = .running run → ∀ task ∈ run.tasks, task.state.result? ≠ some none

/-- The stream is the events of the scenario, and the announcement of the end. -/
theorem stream_of_announces (he : e.Announces config) :
    ∃ events tasks, e.stream = events ++ e.ended ∧ Streams tasks events ∧
      (∀ task ∈ tasks, Linked config task) ∧
      ∀ task ∈ tasks, ∃ run, e.scenario = .running run ∧ task ∈ run.tasks := by
  rw [Announces] at he
  split at he
  · next error world hs =>
    refine ⟨[], [], by rw [stream, hs]; exact he, ⟨?_, ?_⟩, ?_, ?_⟩
    all_goals
      intro x hx
      cases hx
  · next run hs =>
    obtain ⟨-, hlinked, -, events, hevents, hstreams⟩ := he
    exact ⟨events, run.tasks, by rw [stream, hs]; exact hevents, hstreams, hlinked,
      fun task htask => ⟨run, hs, htask⟩⟩

theorem about_ended (id : String) : about id e.ended = [] := by
  rw [ended]
  split <;> rfl

/-- The end is announced for nobody else. -/
theorem runCompleted_notMem {tasks : List Task} {events : List LifecycleEvent}
    (h : Streams tasks events) (status : CompletionStatus) : .runCompleted status ∉ events := by
  intro hmem
  obtain ⟨task, -, hname⟩ := h.named _ hmem
  cases hname

/-- The events about a participant are those of its task, if it has one. -/
theorem about_of_streams {tasks : List Task} {events : List LifecycleEvent}
    (h : Streams tasks events) (id : String) : about id events = [] ∨
      ∃ task ∈ tasks, task.participant.id = id ∧ about id events = emissions task.log := by
  by_cases hid : ∃ task ∈ tasks, task.participant.id = id
  · obtain ⟨task, htask, rfl⟩ := hid
    exact .inr ⟨task, htask, rfl, h.about task htask⟩
  · left
    rw [about, List.filter_eq_nil_iff]
    intro event hevent habout
    obtain ⟨task, htask, hname⟩ := h.named event hevent
    rw [of_decide_eq_true habout] at hname
    exact hid ⟨task, htask, (Option.some.inj hname).symm⟩

/-- **The lifecycle stream**: the events of a participant are sessions, of which only the last may
be open; the end of the run is announced once, after everything else, and then no session is open
unless a task has panicked. -/
theorem lifecycle_grammar {started : ℤ} {shuffle : ℕ → List Duration → List Duration}
    {options : SafetyOptions} {stop : Bool}
    (hstart : start config started shuffle options stop = .ok e₀)
    (h : (machine T P config).exec e₀ acts = some e) :
    (∀ id, ∃ (reasons : List DisconnectReason) (opened : List LifecycleEvent),
      about id e.stream = reasons.flatMap (session id) ++ opened ∧
        opened <+: [.participantConnected id, .participantReady id]) ∧
    ((∀ execution, e.main ≠ .returned execution) → ∀ status, .runCompleted status ∉ e.stream) ∧
    ∀ execution, e.main = .returned execution →
      (∃ events, e.stream = events ++ [.runCompleted execution.report.status.completion] ∧
        ∀ status, .runCompleted status ∉ events) ∧
      (e.NoPanic → ∀ id, ∃ reasons : List DisconnectReason,
        about id e.stream = reasons.flatMap (session id)) := by
  have hall : e.Announces config ∧ e.Concludes config :=
    Machine.exec_invariant (m := machine T P config)
      (I := fun e => e.Announces config ∧ e.Concludes config)
      (fun s a t hs hstep => ⟨announces_step hs.2 hs.1 hstep, hs.2.step hstep⟩)
      (announces_start hstart) h
  obtain ⟨hannounces, hconcludes⟩ := hall
  obtain ⟨events, tasks, hstream, hstreams, hlinked, hscenario⟩ := stream_of_announces hannounces
  -- the announcement of the end is about no participant
  have habout : ∀ id, about id e.stream = about id events := by
    intro id
    have hfilter : about id (events ++ e.ended) = about id events ++ about id e.ended :=
      List.filter_append ..
    rw [hstream, hfilter, about_ended, List.append_nil]
  refine ⟨fun id => ?_, fun hrunning status hmem => ?_, fun execution hmain => ⟨?_, ?_⟩⟩
  · rw [habout]
    rcases about_of_streams hstreams id with hnone | ⟨task, htask, rfl, hemitted⟩
    · exact ⟨[], [], hnone, List.nil_prefix⟩
    · obtain ⟨link, hlog, -⟩ := hlinked task htask
      obtain ⟨reasons, hreasons⟩ := Link.sessions hlog
      exact ⟨reasons, _, hemitted.trans hreasons, link.announced_prefix⟩
  · rw [hstream, ended_of_not_returned hrunning, List.append_nil] at hmem
    exact runCompleted_notMem hstreams status hmem
  · exact ⟨events, ended_of_returned hmain ▸ hstream, runCompleted_notMem hstreams⟩
  · intro hpanic id
    rw [habout]
    rcases about_of_streams hstreams id with hnone | ⟨task, htask, rfl, hemitted⟩
    · exact ⟨[], hnone⟩
    · obtain ⟨link, hlog, hconnects⟩ := hlinked task htask
      obtain ⟨reasons, hreasons⟩ := Link.sessions hlog
      obtain ⟨run, hs, hmem⟩ := hscenario task htask
      -- the task has returned, so its story is over
      have hjoined : run.JoinedDone := by
        rw [Announces, hs] at hannounces
        exact hannounces.2.2.1
      obtain ⟨result, hresult⟩ := done_of_ended hconcludes hs hjoined
        (by simp [ended_of_returned hmain]) task hmem
      have hover : link.isOver = true := by
        refine Participant.isOver_of_result hconnects hresult ?_
        rintro rfl
        exact hpanic run hs task hmem hresult
      refine ⟨reasons, hemitted.trans (hreasons.trans ?_)⟩
      rw [Link.announced_of_isOver hover, List.append_nil]

namespace Refused

/-- The participant connects, and the session is stopped. -/
def connecting : List ExecutionAct :=
  [.scenario (.task 0 .start), .scenario (.task 0 .delayOver), .scenario (.task 0 .enterLoop),
    .scenario (.task 0 (.connected 0)), .scenario (.task 0 .sampled),
    .scenario (.task 0 (.session (.barrier .check)))]

/-- The sender leaves, and the session is over. -/
def leaving : List ExecutionAct :=
  [.scenario .forward, .scenario (.task 0 (.session (.sender .stopped))),
    .scenario (.task 0 (.session .readerJoined)), .scenario (.task 0 .sessionOver),
    .scenario (.join 0), .scenario .evaluate]

end Refused

/-- The stream of an execution with one session. -/
theorem lifecycle_grammar_refused :
    ∃ e₀ acts e execution, start Refused.limited 0 (fun _ => id) {} false = .ok e₀ ∧
      (machine Refused.telemetry Reference.platform Refused.limited).exec e₀ acts = some e ∧
      e.main = .returned execution ∧
      ∃ events, e.stream = events ++ [.runCompleted execution.report.status.completion] ∧
        ∀ status, .runCompleted status ∉ events := by
  obtain ⟨e₀, e, execution, hstart, hexec, hdone, -, -⟩ := Refused.exists_of_verdict
    (show (Refused.run (Refused.connecting ++ Refused.stopped ++ Refused.leaving ++
      Refused.reporting)).bind Refused.verdict = some (true, .passed) by decide +kernel)
  exact ⟨e₀, _, e, execution, hstart, hexec, hdone,
    ((lifecycle_grammar hstart hexec).2.2 execution hdone).1⟩

end Execution

end TakBench
