import TakBench.Runner.Settlement

/-!
# The stream and the metrics

What a run announces on the lifecycle stream it also counts: a participant that is connected and
ready is a success, one that is disconnected is not active any more, and each success has a sample
of its handshake. A success is counted before its samples are recorded, and announced after them, so
the two views of a run agree up to the participants that wait for a histogram; nobody waits when the
report is made.

## Main definitions

* `Effect.announced`, `Effect.sampled`: the events and the samples of an effect
* `Participant.sample?`: the sample for which a participant waits
* `Matched`: effects whose events and samples agree with their counts
* `Execution.Tuned`: the stream and the samples are those of the tasks

## Main results

* `Participant.matched_step`: the effects of a step agree
* `Execution.stream_agrees`: the stream, the samples and the counters of an execution
-/

namespace TakBench

variable {T : Telemetry} {P : Platform} {participant : ParticipantConfig} {config : AppConfig}
  {w : World} {log log' out : List Effect}

/-! ## What is announced -/

namespace LifecycleEvent

def isConnection : LifecycleEvent → Bool
  | .participantConnected _ => true
  | _ => false

def isReadiness : LifecycleEvent → Bool
  | .participantReady _ => true
  | _ => false

def isDisconnection : LifecycleEvent → Bool
  | .participantDisconnected _ _ => true
  | _ => false

/-- The end of a session that was neither stopped nor at its deadline. -/
def isLoss : LifecycleEvent → Bool
  | .participantDisconnected _ .externalStop | .participantDisconnected _ .runDeadline => false
  | .participantDisconnected _ _ => true
  | _ => false

end LifecycleEvent

namespace Effect

/-- The events of a kind that an effect emits. -/
def announced (kind : LifecycleEvent → Bool) : Effect → ℕ
  | .emit event => if kind event then 1 else 0
  | _ => 0

/-- The samples that an effect gives to a histogram. -/
def sampled (histogram : Histogram) : Effect → ℕ
  | .record other _ => if other = histogram then 1 else 0
  | _ => 0

/-- No connection is counted, announced or sampled. -/
def Unannounced : Effect → Prop
  | .add counter _ => counter.isEvent = true
  | .record histogram _ => histogram = .delivery
  | .sub _ _ | .emit _ => False
  | _ => True

theorem Sends.unannounced {e : Effect} (h : e.Sends) : e.Unannounced := by
  cases e with
  | add counter n => exact h
  | write | deliver | publish => trivial
  | _ => exact h.elim

end Effect

namespace World

/-- The samples that a histogram was given. -/
def sampled (histogram : Histogram) (w : World) : ℕ :=
  w.recorded.countP fun sample => sample.1 = histogram

theorem countP_lifecycle_applyAll (kind : LifecycleEvent → Bool) (w : World)
    (out : List Effect) : (w.applyAll out).lifecycle.countP kind =
      w.lifecycle.countP kind + total (Effect.announced kind) out := by
  induction out generalizing w with
  | nil => rfl
  | cons e out ih =>
    rw [applyAll_cons, ih, total_cons, ← Nat.add_assoc]
    congr 1
    cases e with
    | emit event => simp [apply, Effect.announced, List.countP_singleton]
    | _ => rfl

theorem sampled_applyAll (histogram : Histogram) (w : World) (out : List Effect) :
    (w.applyAll out).sampled histogram =
      w.sampled histogram + total (Effect.sampled histogram) out := by
  induction out generalizing w with
  | nil => rfl
  | cons e out ih =>
    rw [applyAll_cons, ih, total_cons, ← Nat.add_assoc]
    congr 1
    cases e with
    | record other elapsed =>
      simp [apply, sampled, Effect.sampled, List.countP_singleton]
    | _ => rfl

end World

/-! ## Sums -/

theorem total_add (f g : Effect → ℕ) (log : List Effect) :
    total (fun e => f e + g e) log = total f log + total g log := by
  rw [total, List.sum_map_add]
  rfl

theorem sumOver_add (f g : Effect → ℕ) (logs : List (List Effect)) :
    sumOver (fun e => f e + g e) logs = sumOver f logs + sumOver g logs := by
  have heach : total (fun e => f e + g e) = fun log => total f log + total g log :=
    funext fun log => total_add f g log
  rw [sumOver, heach, List.sum_map_add]
  rfl

/-- Two sums over tasks that differ by one for some of them. -/
theorem sumOver_add_countP {f g : Effect → ℕ} {late : Task → Bool} {tasks : List Task}
    (h : ∀ task ∈ tasks, total f task.log + (if late task then 1 else 0) = total g task.log) :
    sumOver f (tasks.map (·.log)) + tasks.countP late = sumOver g (tasks.map (·.log)) := by
  induction tasks with
  | nil => rfl
  | cons task tasks ih =>
    have hfirst := h task List.mem_cons_self
    have hrest := ih fun task htask => h task (List.mem_cons_of_mem _ htask)
    simp only [sumOver, List.map_cons, List.sum_cons, List.countP_cons] at hrest ⊢
    omega

/-! ## The log of a task -/

open Effect LifecycleEvent

/-- The histogram of a sample. -/
def ConnectionSample.histogram : ConnectionSample → Histogram
  | .handshake _ => .handshake
  | .recovery _ => .recovery

/-- Is a sample of the histogram waited for? -/
def waitsFor (histogram : Histogram) (sample : Option ConnectionSample) : ℕ :=
  if sample.any (·.histogram = histogram) then 1 else 0

/-- Is a connection not announced yet? -/
def waits (sample : Option ConnectionSample) : ℕ := if sample.isSome then 1 else 0

/-- Effects whose events and samples agree with their counts, from a sample that is waited for to
another one. -/
structure Matched (before after : Option ConnectionSample) (log : List Effect) : Prop where
  connected : total (announced isConnection) log + waits after =
    total (added .connectionSuccesses) log + waits before
  ready : total (announced isReadiness) log + waits after =
    total (added .connectionSuccesses) log + waits before
  active : total (added .activeConnections) log = total (added .connectionSuccesses) log
  disconnected : total (announced isDisconnection) log = total (subtracted .activeConnections) log
  handshake : total (sampled .handshake) log + waitsFor .handshake after =
    total (added .connectionSuccesses) log + waitsFor .handshake before
  recovery : total (sampled .recovery) log + waitsFor .recovery after =
    total (added .reconnects) log + waitsFor .recovery before
  lost : total (announced isLoss) log ≤ total (added .connectionFailures) log

namespace Matched

variable {before after last : Option ConnectionSample}

theorem nil : Matched before before [] := ⟨rfl, rfl, rfl, rfl, rfl, rfl, Nat.le_refl _⟩

theorem append (h : Matched before after log) (h' : Matched after last log') :
    Matched before last (log ++ log') := by
  obtain ⟨hconnected, hready, hactive, hdisconnected, hhandshake, hrecovery, hlost⟩ := h
  obtain ⟨hconnected', hready', hactive', hdisconnected', hhandshake', hrecovery', hlost'⟩ := h'
  constructor <;> simp only [total_append] <;> omega

end Matched

/-- What counts, announces and samples no connection. -/
theorem total_of_unannounced (h : ∀ e ∈ out, e.Unannounced) :
    (∀ kind, total (announced kind) out = 0) ∧
    (∀ counter : Counter, counter.isEvent = false →
      total (added counter) out = 0 ∧ total (subtracted counter) out = 0) ∧
    ∀ histogram : Histogram, histogram ≠ .delivery → total (sampled histogram) out = 0 := by
  refine ⟨fun kind => ?_, fun counter hcounter => ⟨?_, ?_⟩, fun histogram hne => ?_⟩
  · apply total_eq_zero
    intro e he
    have hnone := h e he
    cases e with
    | emit event => exact hnone.elim
    | _ => rfl
  · apply total_eq_zero
    intro e he
    have hnone := h e he
    cases e with
    | add other n =>
      refine if_neg ?_
      rintro rfl
      exact Bool.false_ne_true (hcounter.symm.trans hnone)
    | _ => rfl
  · apply total_eq_zero
    intro e he
    have hnone := h e he
    cases e with
    | sub other n => exact hnone.elim
    | _ => rfl
  · apply total_eq_zero
    intro e he
    have hnone := h e he
    cases e with
    | record other elapsed => exact if_neg fun heq => hne (heq.symm.trans hnone)
    | _ => rfl

theorem matched_of_unannounced (sample : Option ConnectionSample)
    (h : ∀ e ∈ out, e.Unannounced) : Matched sample sample out := by
  obtain ⟨hevents, hcounts, hsamples⟩ := total_of_unannounced h
  have hsuccesses := (hcounts .connectionSuccesses rfl).1
  constructor
  · rw [hevents, hsuccesses]
  · rw [hevents, hsuccesses]
  · rw [(hcounts .activeConnections rfl).1, hsuccesses]
  · rw [hevents, (hcounts .activeConnections rfl).2]
  · rw [hsamples .handshake (by simp), hsuccesses]
  · rw [hsamples .recovery (by simp), (hcounts .reconnects rfl).1]
  · rw [hevents]
    exact Nat.zero_le _

/-- A session announces nothing and samples deliveries only. -/
theorem Session.step_unannounced {session session' : Session} {act : SessionAct}
    (h : session.step P participant config w act = some (session', out)) :
    ∀ e ∈ out, e.Unannounced := by
  rcases step_effects h with ⟨-, rfl⟩ | ⟨sender, sender', a, -, -, hsender⟩ |
    ⟨reader, reader', a, -, -, hreader⟩
  · simp
  · rcases Sender.step_cases hsender with ⟨utc, id, rfl, -, effects, rfl, hkeeps⟩ | ⟨-, hidles⟩
    · intro e he
      rcases List.mem_cons.mp he with rfl | he
      · trivial
      · exact (hkeeps.sends e he).unannounced
    · exact fun e he => (hidles.2.2.2.2 e he).unannounced
  · rcases Reader.step_effects hreader with ⟨id, -, -, rfl⟩ | rfl | rfl | rfl
    · rw [Reader.record]
      split
      · simp [Effect.Unannounced, Counter.isEvent]
      · split <;> simp [Effect.Unannounced]
    · simp
    · simp [Effect.Unannounced, Counter.isEvent]
    · simp [Effect.Unannounced, Counter.isEvent]

namespace Participant

variable {p p' : Participant} {act : ParticipantAct}

/-- The sample for which a participant waits. -/
def sample? (p : Participant) : Option ConnectionSample :=
  match p.phase with
  | .sampling sample => some sample
  | _ => none

theorem sample?_of_isBetween (h : p.isBetween = true) : p.sample? = none := by
  obtain ⟨phase, attempt, recoveryStarted⟩ := p
  cases phase with
  | sampling sample => cases h
  | _ => rfl

theorem sample?_of_result {result : Option (Except Failure Unit)} (h : p.result? = some result) :
    p.sample? = none := by
  obtain ⟨phase, attempt, recoveryStarted⟩ := p
  cases phase with
  | sampling sample => cases h
  | _ => rfl

/-- A new connection waits for the sample of its handshake. -/
theorem matched_countConnected (elapsed : Duration) :
    Matched none (some (.handshake elapsed)) countConnected := by
  constructor <;> simp [countConnected, waits, waitsFor, ConnectionSample.histogram, announced,
    sampled, added, subtracted]

theorem matched_reconnect (elapsed elapsed' : Duration) :
    Matched (some (.handshake elapsed)) (some (.recovery elapsed'))
      [.record .handshake elapsed, .add .reconnects 1] := by
  constructor <;> simp [waits, waitsFor, ConnectionSample.histogram, announced, sampled, added,
    subtracted]

/-- With its last sample a connection is announced. -/
theorem matched_recordConnected (sample : ConnectionSample) :
    Matched (some sample) none (recordConnected participant sample) := by
  cases sample <;> constructor <;>
    simp [recordConnected, recordSample, waits, waitsFor, ConnectionSample.histogram, announced,
      sampled, added, subtracted, isConnection, isReadiness, isDisconnection, isLoss]

theorem matched_recordConnectFailed (error : ConnectError) :
    Matched none none (recordConnectFailed config error) := by
  rw [recordConnectFailed]
  split <;> split <;> constructor <;>
    simp [announced, sampled, added, subtracted]

/-- A session that ends well is not lost. -/
theorem isLoss_ok (id : String) (result : Unit) (stop pastDeadline : Bool) :
    isLoss (.participantDisconnected id (disconnectReason (.ok result) stop pastDeadline)) =
      false := by
  cases stop <;> cases pastDeadline <;> rfl

/-- A session that ends in an error is. -/
theorem isLoss_error (id : String) (failure : Failure) (stop pastDeadline : Bool) :
    isLoss (.participantDisconnected id (disconnectReason (.error failure) stop pastDeadline)) =
      true := by
  rw [disconnectReason]
  split <;> rfl

theorem matched_recordSessionOver (result : Except Failure Unit) :
    Matched none none (recordSessionOver participant config w p result) := by
  cases result with
  | ok _ =>
    constructor <;> simp [recordSessionOver, announced, sampled, added, subtracted, isConnection,
      isReadiness, isDisconnection, isLoss_ok]
  | error failure =>
    simp only [recordSessionOver]
    split <;> split <;> constructor <;>
      simp [announced, sampled, added, subtracted, isConnection, isReadiness, isDisconnection,
        isLoss_error]

/-- **The effects of a step agree**, up to the sample that is waited for. -/
theorem matched_step (h : p.step P participant config w act = some (p', out)) :
    Matched p.sample? p'.sample? out := by
  -- only the phase `sampling` waits for a sample
  have hnone : ∀ phase, p.phase = phase → (∀ sample, phase ≠ .sampling sample) →
      p.sample? = none := by
    intro phase hphase hne
    rw [sample?, hphase]
    cases phase with
    | sampling sample => exact absurd rfl (hne sample)
    | _ => rfl
  have hsampling : ∀ sample, p.phase = .sampling sample → p.sample? = some sample := by
    intro sample hphase
    rw [sample?, hphase]
  cases steps_of_step h with
  | connect handshakeTime hphase =>
    rw [hnone _ hphase (by simp)]
    exact matched_countConnected handshakeTime
  | reconnect elapsed hphase =>
    rw [hsampling _ hphase]
    exact matched_reconnect elapsed _
  | openRequired sample hphase | openSession sample hphase =>
    rw [hsampling _ hphase]
    exact matched_recordConnected sample
  | connectRetried error source hphase | connectFails error source hphase =>
    rw [hnone _ hphase (by simp)]
    exact matched_recordConnectFailed error
  | sessionOver result hphase =>
    rw [hnone _ hphase (by simp), sample?_of_isBetween (isBetween_afterSession result)]
    exact matched_recordSessionOver result
  | session session session' a out hphase hsession =>
    rw [hnone _ hphase (by simp)]
    exact matched_of_unannounced none (Session.step_unannounced hsession)
  -- an attempt and a mark in the ready set are neither announced nor sampled
  | dial hphase | marked hphase | notified hphase =>
    rw [hnone _ hphase (by simp)]
    constructor <;> simp [announced, sampled, added, subtracted, sample?, goto]
  | enter _ hphase =>
    rw [hnone _ hphase (by simp), sample?_of_isBetween isBetween_enter]
    exact .nil
  | retry factor failure hphase =>
    rw [hnone _ hphase (by simp), sample?_of_isBetween (isBetween_retry failure factor)]
    exact .nil
  -- the steps that record nothing, to a phase without a connection
  | startOver _ hphase | ramp _ _ hphase | redial _ _ hphase | rampCut _ hphase
  | backoffCut _ _ hphase | leave hphase | dialStopped hphase | dialDeadline hphase =>
    rw [hnone _ hphase (by simp)]
    exact .nil

/-- A dial in progress. -/
def dialing (p : Participant) : ℕ :=
  match p.phase with
  | .dialing => 1
  | _ => 0

theorem dialing_eq_zero (hphase : p.phase ≠ .dialing) : p.dialing = 0 := by
  rw [dialing]
  split
  · next heq => exact absurd heq hphase
  · rfl

theorem added_recordConnectFailed (config : AppConfig) (error : ConnectError) :
    total (added .connectionSuccesses) (recordConnectFailed config error) = 0 ∧
      total (added .connectionFailures) (recordConnectFailed config error) = 1 := by
  rw [recordConnectFailed]
  split <;> split <;> simp [added]

theorem afterSession_ne_dialing (result : Except Failure Unit) :
    (p.goto (afterSession config w result)).phase ≠ .dialing := by
  cases result with
  | ok _ => simp [goto, afterSession]
  | error failure =>
    simp only [goto, afterSession]
    split <;> simp

/-- A session that ends in an error is a failure and is lost. -/
theorem dials_recordSessionOver (result : Except Failure Unit) :
    total (added .connectionSuccesses) (recordSessionOver participant config w p result) +
        total (added .connectionFailures) (recordSessionOver participant config w p result) ≤
      total (announced isLoss) (recordSessionOver participant config w p result) := by
  cases result with
  | ok _ => simp [recordSessionOver, added]
  | error failure =>
    simp only [recordSessionOver]
    split <;> split <;> simp [added, announced, isLoss_error]

/-- **A dial ends once**: with a success, with a failure or with neither, and a failure without a
dial is that of a session that is lost. -/
theorem dials_step (h : p.step P participant config w act = some (p', out)) :
    total (added .connectionSuccesses) out + total (added .connectionFailures) out + p'.dialing ≤
      total (added .connectionAttempts) out + total (announced isLoss) out + p.dialing := by
  have hquiet : (∀ e ∈ out, e.Unannounced) → p'.phase ≠ .dialing →
      total (added .connectionSuccesses) out + total (added .connectionFailures) out +
        p'.dialing ≤ total (added .connectionAttempts) out + total (announced isLoss) out +
          p.dialing := by
    intro hout hphase
    obtain ⟨-, hcounts, -⟩ := total_of_unannounced hout
    rw [(hcounts .connectionSuccesses rfl).1, (hcounts .connectionFailures rfl).1,
      dialing_eq_zero hphase]
    exact Nat.zero_le _
  have hdialing : p.phase = .dialing → p.dialing = 1 := by
    intro hphase
    rw [dialing, hphase]
  cases steps_of_step h with
  | dial => simp [added, announced, dialing, goto]
  | connect handshakeTime hphase =>
    rw [hdialing hphase]
    simp [countConnected, added, announced, dialing, goto]
  | reconnect => simp [added, announced, dialing, goto]
  | openRequired sample | openSession sample =>
    cases sample <;>
      simp [recordConnected, recordSample, added, announced, dialing, goto, isLoss]
  | connectRetried error source hphase | connectFails error source hphase =>
    obtain ⟨hsuccesses, hfailures⟩ := added_recordConnectFailed config error
    rw [hdialing hphase, hsuccesses, hfailures, dialing_eq_zero (by simp [goto])]
    omega
  | sessionOver result hphase =>
    rw [dialing_eq_zero (afterSession_ne_dialing result)]
    exact (dials_recordSessionOver result).trans (by omega)
  | session session session' a out hphase hsession =>
    exact hquiet (Session.step_unannounced hsession) (by simp [goto])
  | enter =>
    refine hquiet (by simp) ?_
    rw [Participant.enter]
    split <;> simp
  | retry factor failure =>
    refine hquiet (by simp) ?_
    rw [Participant.retry]
    split
    · simp [goto]
    · simp only [backOff]
      split
      · simp
      · split <;> simp [cutBackoff]
  | startOver | ramp | redial | rampCut | backoffCut | leave | dialStopped | dialDeadline
  | marked | notified => exact hquiet (by simp [Unannounced]) (by simp [goto, cutBackoff])

end Participant

/-- What a task has announced and sampled agrees with what it has counted. -/
structure Task.Agrees (task : Task) : Prop where
  matched : Matched none task.state.sample? task.log
  dials : total (added .connectionSuccesses) task.log + total (added .connectionFailures) task.log +
    task.state.dialing ≤ total (added .connectionAttempts) task.log +
      total (announced isLoss) task.log

theorem Run.agrees_invariant : TaskInvariant P config fun _ task => task.Agrees where
  spawn _ _ _ _ := ⟨⟨rfl, rfl, rfl, rfl, rfl, rfl, Nat.le_refl _⟩, Nat.le_refl _⟩
  later _ _ _ _ _ h := h
  step w task act state effects h hstep := by
    have hdials := Participant.dials_step hstep
    have hbefore := h.dials
    refine ⟨h.matched.append (Participant.matched_step hstep), ?_⟩
    simp only [total_append]
    omega

/-! ## The stream of an execution -/

/-- The events and the samples of a world are those of its tasks, but for the end of the run. -/
structure Tuned (w : World) (tasks : List Task) : Prop where
  agrees : ∀ task ∈ tasks, task.Agrees
  announced : ∀ kind, (∀ status, kind (.runCompleted status) = false) →
    w.lifecycle.countP kind = sumOver (announced kind) (tasks.map (·.log))
  sampled : ∀ histogram, w.sampled histogram = sumOver (sampled histogram) (tasks.map (·.log))

/-- What the effects of a step add to a value of the world, the step adds to its task. -/
theorem Run.view_step {r r' : Run} {act : RunAct} {v : World → ℕ} {f : Effect → ℕ}
    (happly : ∀ w out, v (World.applyAll w out) = v w + total f out)
    (hidle : Idle r r' → v r'.world = v r.world)
    (hr : v r.world = sumOver f r.logs) (h : r.step P config act = some r') :
    v r'.world = sumOver f r'.logs := by
  rcases step_cases h with ⟨i, a, task, state, out, rfl, hget, -, rfl⟩ | ⟨-, hsame⟩
  · have hlog : r.logs[i]? = some task.log := by
      rw [logs, List.getElem?_map, hget]
      rfl
    have hlogs : (r.advance i task state out).logs = r.logs.set i (task.log ++ out) :=
      List.map_set
    rw [hlogs, sumOver_set hlog, ← hr]
    exact happly r.world out
  · rw [hidle hsame, logs, hsame.tasks]
    exact hr

namespace Tuned

variable {tasks : List Task} {r r' : Run} {act : RunAct}

theorem step (hr : Tuned r.world r.tasks) (h : r.step P config act = some r') :
    Tuned r'.world r'.tasks where
  agrees := Run.agrees_invariant.run_step hr.agrees h
  announced kind hkind := by
    refine Run.view_step (v := fun w => w.lifecycle.countP kind)
      (World.countP_lifecycle_applyAll kind) (fun hidle => ?_) (hr.announced kind hkind) h
    rw [hidle.lifecycle]
  sampled histogram := by
    refine Run.view_step (World.sampled_applyAll histogram) (fun hidle => ?_)
      (hr.sampled histogram) h
    rw [World.sampled, World.sampled, hidle.recorded]

/-- The end of the run is announced. -/
theorem emit (hw : Tuned w tasks) (status : CompletionStatus) :
    Tuned (w.apply (.emit (.runCompleted status))) tasks where
  agrees := hw.agrees
  announced kind hkind := by
    rw [← hw.announced kind hkind]
    simp [World.apply, hkind]
  sampled := hw.sampled

theorem of_log_nil
    (hlogs : ∀ task ∈ tasks, task.log = [] ∧ ∃ delay, task.state = .spawn delay)
    (hlifecycle : w.lifecycle = []) (hrecorded : w.recorded = []) : Tuned w tasks := by
  have hnone : ∀ f, sumOver f (tasks.map (·.log)) = 0 := by
    intro f
    apply List.sum_eq_zero
    intro n hn
    simp only [List.map_map, List.mem_map, Function.comp_apply] at hn
    obtain ⟨task, htask, rfl⟩ := hn
    rw [(hlogs task htask).1, total_nil]
  refine ⟨fun task htask => ?_, fun kind _ => ?_, fun histogram => ?_⟩
  · obtain ⟨hlog, delay, hstate⟩ := hlogs task htask
    constructor
    · rw [hlog, hstate]
      exact .nil
    · rw [hlog, hstate]
      exact Nat.le_refl _
  · rw [hlifecycle, hnone]
    rfl
  · rw [World.sampled, hrecorded, hnone]
    rfl

end Tuned

namespace Execution

variable {e e' e₀ : Execution} {act : ExecutionAct} {acts : List ExecutionAct}

theorem tuned_step (he : Tuned e.scenario.world e.tasks) (h : e.step T P config act = some e') :
    Tuned e'.scenario.world e'.tasks := by
  rw [tasks] at he ⊢
  cases scenario_cases h with
  | steps run run' a hs hstep hs' hmain =>
    rw [hs] at he
    rw [hs']
    exact he.step hstep
  | elapses error world d hs hs' hmain =>
    rw [hs] at he
    rw [hs']
    exact ⟨he.agrees, he.announced, he.sampled⟩
  | reports outcome threshold loading metrics hmain hmetrics hs' hmain' =>
    rw [hs']
    cases hs : e.scenario with
    | failed error world =>
      rw [hs] at he
      exact he.emit _
    | running run =>
      rw [hs] at he
      exact he.emit _
  | same hs hmain =>
    rw [hs]
    exact he

theorem tuned_start {started : ℤ} {shuffle : ℕ → List Duration → List Duration}
    {options : SafetyOptions} {stop : Bool}
    (hstart : start config started shuffle options stop = .ok e₀) :
    Tuned e₀.scenario.world e₀.tasks := by
  obtain ⟨-, _, rfl, ⟨error, rfl⟩ | ⟨run, hrun, rfl⟩⟩ := exists_of_start hstart
  · exact .of_log_nil (fun task htask => absurd htask List.not_mem_nil) rfl rfl
  · obtain ⟨-, delays, rfl⟩ := Run.exists_of_mem_start hrun
    refine .of_log_nil (fun task htask => ?_) rfl rfl
    obtain ⟨-, hlog, delay, hstate⟩ := Run.exists_of_mem_spawn htask
    exact ⟨hlog, delay, hstate⟩

/-- But for the active connections, a counter is what the tasks have added. -/
theorem Tallied.counter_eq (he : e.Tallied config) {counter : Counter}
    (hcounter : counter ≠ .activeConnections) :
    e.scenario.world.counters counter = sumOver (added counter) (e.tasks.map (·.log)) := by
  rw [Tallied] at he
  rw [tasks]
  split at he
  · next error world hs =>
    rw [hs]
    exact he counter
  · next run hs =>
    rw [hs]
    exact Run.counters_eq_sumOver he.1 he.2 hcounter

theorem tuned_of_exec {started : ℤ} {shuffle : ℕ → List Duration → List Duration}
    {options : SafetyOptions} {stop : Bool}
    (hstart : start config started shuffle options stop = .ok e₀)
    (h : (machine T P config).exec e₀ acts = some e) : Tuned e.scenario.world e.tasks :=
  Machine.exec_invariant (m := machine T P config) (I := fun e => Tuned e.scenario.world e.tasks)
    (fun _ _ _ he hstep => tuned_step he hstep) (tuned_start hstart) h

/-- The participants that wait to record a sample of a new connection. -/
def waiting (e : Execution) : ℕ := e.tasks.countP fun task => task.state.sample?.isSome

/-- Those of them that wait for a histogram. -/
def waitingFor (histogram : Histogram) (e : Execution) : ℕ :=
  e.tasks.countP fun task => task.state.sample?.any (·.histogram = histogram)

/-- Nobody waits at rest. -/
theorem waiting_eq_zero (hrest : e.scenario.AtRest) :
    e.waiting = 0 ∧ ∀ histogram, e.waitingFor histogram = 0 := by
  have hnone : ∀ task ∈ e.tasks, task.state.sample? = none := by
    intro task htask
    rw [tasks] at htask
    split at htask
    · cases htask
    · next run hs =>
      obtain ⟨result, hresult⟩ := hrest run hs task htask
      exact Participant.sample?_of_result hresult
  refine ⟨List.countP_eq_zero.mpr fun task htask => ?_,
    fun histogram => List.countP_eq_zero.mpr fun task htask => ?_⟩
  · simp [hnone task htask]
  · simp [hnone task htask]

section Agreement

variable (hw : Tuned e.scenario.world e.tasks) (he : e.Tallied config)

include hw

/-- Counts that agree for each task agree for all of them. -/
theorem sumOver_eq_of_matched {f g : Effect → ℕ}
    (heq : ∀ sample log, Matched none sample log → total f log = total g log) :
    sumOver f (e.tasks.map (·.log)) = sumOver g (e.tasks.map (·.log)) := by
  refine congrArg List.sum (List.map_congr_left fun log hlog => ?_)
  obtain ⟨task, htask, rfl⟩ := List.mem_map.mp hlog
  exact heq _ _ (hw.agrees task htask).matched

/-- Counts that agree for each task, up to a sample that it waits for, agree for all of them. -/
theorem sumOver_add_of_matched {f g : Effect → ℕ} {late : Option ConnectionSample → Bool}
    (heq : ∀ sample log, Matched none sample log →
      total f log + (if late sample then 1 else 0) = total g log) :
    sumOver f (e.tasks.map (·.log)) + e.tasks.countP (fun task => late task.state.sample?) =
      sumOver g (e.tasks.map (·.log)) :=
  sumOver_add_countP fun task htask => heq _ _ (hw.agrees task htask).matched

include he

/-- Each success is announced, as connected, as ready, and as disconnected unless it is active. -/
theorem connections_announced :
    e.stream.countP isConnection + e.waiting =
        e.scenario.world.counters .connectionSuccesses ∧
      e.stream.countP isReadiness + e.waiting =
        e.scenario.world.counters .connectionSuccesses ∧
      e.stream.countP isDisconnection + e.scenario.world.counters .activeConnections =
        e.scenario.world.counters .connectionSuccesses := by
  have hsuccesses : e.scenario.world.counters .connectionSuccesses = _ := he.counter_eq (by simp)
  have hconnected : e.stream.countP isConnection = _ := hw.announced isConnection fun _ => rfl
  have hready : e.stream.countP isReadiness = _ := hw.announced isReadiness fun _ => rfl
  have hdisconnected : e.stream.countP isDisconnection = _ :=
    hw.announced isDisconnection fun _ => rfl
  have hactive := he.counters .activeConnections
  rw [sumOver_eq_of_matched hw fun _ _ hlog => hlog.active, ← hsuccesses] at hactive
  rw [sumOver_eq_of_matched hw fun _ _ hlog => hlog.disconnected] at hdisconnected
  refine ⟨?_, ?_, by omega⟩
  · rw [hconnected, hsuccesses]
    exact sumOver_add_of_matched hw fun _ _ hlog => hlog.connected
  · rw [hready, hsuccesses]
    exact sumOver_add_of_matched hw fun _ _ hlog => hlog.ready

/-- Each success has a sample of its handshake, and each reconnect one of its recovery. -/
theorem connections_sampled :
    e.scenario.world.sampled .handshake + e.waitingFor .handshake =
        e.scenario.world.counters .connectionSuccesses ∧
      e.scenario.world.sampled .recovery + e.waitingFor .recovery =
        e.scenario.world.counters .reconnects := by
  constructor
  · rw [he.counter_eq (by simp), hw.sampled]
    exact sumOver_add_of_matched hw fun _ _ hlog => hlog.handshake
  · rw [he.counter_eq (by simp), hw.sampled]
    exact sumOver_add_of_matched hw fun _ _ hlog => hlog.recovery

/-- A failure is that of a session that was lost, or of a dial that did not succeed. -/
theorem losses_counted :
    e.stream.countP isLoss ≤ e.scenario.world.counters .connectionFailures ∧
      e.scenario.world.counters .connectionSuccesses +
          e.scenario.world.counters .connectionFailures ≤
        e.scenario.world.counters .connectionAttempts + e.stream.countP isLoss := by
  have hloss : e.stream.countP isLoss = _ := hw.announced isLoss fun _ => rfl
  rw [hloss, he.counter_eq (by simp), he.counter_eq (by simp), he.counter_eq (by simp),
    ← sumOver_add, ← sumOver_add]
  constructor <;> refine sumOver_le fun log hlog => ?_
  all_goals obtain ⟨task, htask, rfl⟩ := List.mem_map.mp hlog
  · exact (hw.agrees task htask).matched.lost
  · have hdials := (hw.agrees task htask).dials
    rw [total_add, total_add]
    omega

end Agreement

/-- **The stream, the samples and the counters agree** after each step of an execution, up to the
participants that wait to record a sample. The successes are those that were announced as connected
and as ready, and those that wait; those with a sample of their handshake, and those that wait for
its histogram; and those that are disconnected or still active. The reconnects are those with a
sample of their recovery, and those that wait for its histogram. A failure is that of a session that
was lost, or of a dial that did not succeed. So the report of an execution agrees with its stream,
and all that connected is disconnected, unless a task has panicked. -/
theorem stream_agrees {started : ℤ} {shuffle : ℕ → List Duration → List Duration}
    {options : SafetyOptions} {stop : Bool}
    (hstart : start config started shuffle options stop = .ok e₀)
    (h : (machine T P config).exec e₀ acts = some e) :
    (e.stream.countP isConnection + e.waiting =
        e.scenario.world.counters .connectionSuccesses ∧
      e.stream.countP isReadiness + e.waiting =
        e.scenario.world.counters .connectionSuccesses ∧
      e.stream.countP isDisconnection + e.scenario.world.counters .activeConnections =
        e.scenario.world.counters .connectionSuccesses) ∧
    (e.scenario.world.sampled .handshake + e.waitingFor .handshake =
        e.scenario.world.counters .connectionSuccesses ∧
      e.scenario.world.sampled .recovery + e.waitingFor .recovery =
        e.scenario.world.counters .reconnects) ∧
    (e.stream.countP isLoss ≤ e.scenario.world.counters .connectionFailures ∧
      e.scenario.world.counters .connectionSuccesses +
          e.scenario.world.counters .connectionFailures ≤
        e.scenario.world.counters .connectionAttempts + e.stream.countP isLoss) ∧
    ∀ execution, e.main = .returned execution → e.NoPanic →
      (e.stream.countP isConnection = execution.report.metrics.counters .connectionSuccesses ∧
        e.stream.countP isReadiness = execution.report.metrics.counters .connectionSuccesses ∧
        e.stream.countP isDisconnection =
          execution.report.metrics.counters .connectionSuccesses) ∧
      (e.scenario.world.sampled .handshake =
          execution.report.metrics.counters .connectionSuccesses ∧
        e.scenario.world.sampled .recovery = execution.report.metrics.counters .reconnects) ∧
      e.stream.countP isLoss ≤ execution.report.metrics.counters .connectionFailures ∧
        execution.report.metrics.counters .connectionSuccesses +
            execution.report.metrics.counters .connectionFailures ≤
          execution.report.metrics.counters .connectionAttempts + e.stream.countP isLoss := by
  have htallied := tallied_of_exec hstart h
  have htuned := tuned_of_exec hstart h
  have hannounced := connections_announced htuned htallied
  have hsampled := connections_sampled htuned htallied
  have hlosses := losses_counted htuned htallied
  refine ⟨hannounced, hsampled, hlosses, ?_⟩
  intro execution hmain hpanic
  obtain ⟨hrest, hmetrics⟩ := metrics_of_returned hstart h hmain hpanic
  obtain ⟨hwaiting, hwaitingFor⟩ := waiting_eq_zero hrest
  have hcounters : execution.report.metrics.counters = e.scenario.world.counters := by
    rw [hmetrics]
    rfl
  rw [hwaiting, htallied.active_eq_zero hrest] at hannounced
  rw [hwaitingFor, hwaitingFor] at hsampled
  rw [hcounters]
  exact ⟨hannounced, hsampled, hlosses⟩

/-- The stream and the report of an execution with one session. -/
theorem stream_agrees_refused :
    ∃ e₀ acts e execution, start Refused.limited 0 (fun _ => id) {} false = .ok e₀ ∧
      (machine Refused.telemetry Reference.platform Refused.limited).exec e₀ acts = some e ∧
      e.main = .returned execution ∧ e.stream.countP isConnection = 1 ∧
      e.stream.countP isDisconnection = 1 ∧ e.scenario.world.sampled .handshake = 1 := by
  obtain ⟨e₀, e, execution, hstart, hexec, hmain, hpanic, hone⟩ := Refused.exists_connected
  obtain ⟨⟨hconnected, -, hdisconnected⟩, ⟨hhandshake, -⟩, -⟩ :=
    (stream_agrees hstart hexec).2.2.2 execution hmain hpanic
  rw [hone] at hconnected hdisconnected hhandshake
  exact ⟨e₀, _, e, execution, hstart, hexec, hmain, hconnected, hdisconnected, hhandshake⟩

end Execution

end TakBench
