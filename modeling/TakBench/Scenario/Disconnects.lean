import TakBench.Scenario.Cancellation

/-!
# Why a participant disconnected

A session says only whether it ended in an error. The reason of a disconnect is taken from the
error, and where there is none it is guessed from the stop signal and the clock. But a session also
ends well when it waited too long for the others, and when it disconnects abruptly. The guess is
right exactly when no wait times out before the stop signal, and no session disconnects abruptly
that is over before both the stop signal and the deadline of the run.

## Main definitions

* `EndCause`, `Session.endCause?`: why a session ended, if it does not say so
* `Watched`: a run with the causes of its tasks
* `Watched.Names`: the reason names the cause
* `Watched.Guessable`: the cause can be guessed

## Main results

* `Reader.isOver_of_step`, `Session.explained_step`: who ends well was told to, or has a cause
* `Watched.names_iff`: the runs whose reasons name the causes
-/

namespace TakBench

variable {P : Platform} {participant : ParticipantConfig} {config : AppConfig}

/-- Why a session ended well, other than by the stop signal or at the deadline of the run. A wait
that timed out keeps whether the stop signal was up at that moment: the session may still have to
join its reader. -/
inductive EndCause where
  | readinessTimeout (stopped : Bool)
  | abruptDisconnect
  deriving DecidableEq

/-- Is stop or the deadline of the run up? -/
def World.IsOver (config : AppConfig) (w : World) : Prop :=
  w.stop = true ∨ config.run.duration ≤ w.now

theorem enterDelay_eq_none_iff {w : World} {delay : Duration} :
    enterDelay w config.run.duration delay = none ↔ w.IsOver config := by
  rw [enterDelay, World.IsOver]
  split
  · next h => simpa using h
  · next h => simpa using h

/-! ## Who ends well -/

section Reader

variable {w : World} {reader reader' : Reader} {out : List Effect}

theorem Reader.isOver_of_start (h : (start participant config w).phase = .returned (.ok ())) :
    w.IsOver config := by
  rw [start] at h
  split at h
  · cases h
  · split at h
    · next hover => exact enterDelay_eq_none_iff.mp hover
    · cases h

theorem Reader.push_phase (reader : Reader) (bytes : List UInt8) :
    (reader.push P bytes).phase ≠ .returned (.ok ()) := by
  rw [push]
  split <;> simp

/-- **A reader ends well** only if stop or the deadline is up. -/
theorem Reader.isOver_of_step {act : ReaderAct}
    (h : reader.step P participant config w act = some (reader', out))
    (hreturned : reader'.phase = .returned (.ok ())) : w.IsOver config := by
  cases act with
  | started =>
    simp only [step] at h
    split at h
    · obtain ⟨rfl, -⟩ := Prod.mk.inj (Option.some.inj h)
      exact isOver_of_start hreturned
    · cases h
  | stopped =>
    simp only [step, Option.ite_none_right_eq_some] at h
    exact .inl h.1
  | deadline =>
    simp only [step, Option.ite_none_right_eq_some] at h
    exact .inr h.1
  | received bytes =>
    simp only [step] at h
    split at h
    · simp only [Option.ite_none_right_eq_some] at h
      obtain ⟨-, h⟩ := h
      split at h
      · obtain ⟨rfl, -⟩ := Prod.mk.inj (Option.some.inj h)
        exact absurd hreturned (push_phase _ _)
      · split at h
        · next hover => exact enterDelay_eq_none_iff.mp hover
        · obtain ⟨rfl, -⟩ := Prod.mk.inj (Option.some.inj h)
          cases hreturned
    · cases h
  | delayOver =>
    simp only [step] at h
    split at h
    · simp only [Option.ite_none_right_eq_some, Option.some.injEq, Prod.mk.injEq] at h
      obtain ⟨-, rfl, -⟩ := h
      cases hreturned
    · simp only [Option.ite_none_right_eq_some, Option.some.injEq, Prod.mk.injEq] at h
      obtain ⟨-, rfl, -⟩ := h
      exact absurd hreturned (push_phase _ _)
    · cases h
  -- the others go on, or end in an error
  | _ =>
    simp only [step, finish] at h
    grind

end Reader

namespace Session

/-- Does the session end well? An aborted reader may still run on. -/
def endsWell : Session → Bool
  | .joining _ (.ok ()) | .returned (.ok ()) => true
  | _ => false

/-- The cause of the end of a session in a step that ends it. -/
def endCause? (session' : Session) (w : World) : SessionAct → Option EndCause
  | .barrier .deadline => some (.readinessTimeout w.stop)
  | .sender (.tick _ _) | .sender (.write _) | .sender .published =>
    if session'.endsWell then some .abruptDisconnect else none
  | _ => none

/-- A session, or its reader, that ended well was told to, unless there is a cause. -/
structure Explained (config : AppConfig) (w : World) (cause : Option EndCause)
    (session : Session) : Prop where
  ended : session.endsWell = true → cause = none → w.IsOver config
  reader : ∀ reader, session.reader? = some reader → reader.phase = .returned (.ok ()) →
    w.IsOver config
  caused : cause ≠ none → session.endsWell = true
  stopped : cause = some (.readinessTimeout true) → w.stop = true

variable {w w' : World} {session session' : Session} {cause : Option EndCause} {out : List Effect}

theorem Explained.mono (h : session.Explained config w cause)
    (hover : w.IsOver config → w'.IsOver config) (hstop : w.stop = true → w'.stop = true) :
    session.Explained config w' cause where
  ended hends hcause := hover (h.ended hends hcause)
  reader reader hreader hphase := hover (h.reader reader hreader hphase)
  caused := h.caused
  stopped hcause := hstop (h.stopped hcause)

theorem Explained.cause_eq_none (h : session.Explained config w cause)
    (hends : session.endsWell = false) : cause = none := by
  by_contra hcause
  exact Bool.false_ne_true (hends.symm.trans (h.caused hcause))

/-- A session that goes on without a reader. -/
theorem explained_of_none (hends : session.endsWell = false) (hreader : session.reader? = none) :
    session.Explained config w none := by
  refine ⟨?_, ?_, fun hcause => absurd rfl hcause, fun hcause => (by cases hcause)⟩
  · intro hwell
    rw [hends] at hwell
    cases hwell
  · intro reader halive
    rw [hreader] at halive
    cases halive

/-- A session that has returned without a cause. -/
theorem explained_returned {result : Except Failure Unit}
    (h : result = .ok () → w.IsOver config) :
    (returned result).Explained config w none := by
  refine ⟨?_, ?_, fun hcause => absurd rfl hcause, fun hcause => (by cases hcause)⟩
  · intro hends _
    cases result with
    | ok _ => exact h rfl
    | error failure => cases hends
  · intro reader halive
    cases halive

theorem explained_afterReader {reader : Reader}
    (h : reader.phase = .returned (.ok ()) → w.IsOver config) :
    (afterReader reader).Explained config w none := by
  rw [afterReader]
  split
  · next result hphase =>
    apply explained_returned
    rintro rfl
    exact h hphase
  · refine ⟨fun hends => (by cases hends), ?_, fun hcause => absurd rfl hcause,
      fun hcause => (by cases hcause)⟩
    intro reader' halive hphase
    obtain rfl := Option.some.inj halive
    exact h hphase

/-- The reader of a session that starts is not done, unless it was told to stop. -/
theorem explained_enter : (enter participant config w).Explained config w none := by
  rw [enter]
  split
  · exact explained_afterReader Reader.isOver_of_start
  · exact explained_of_none rfl rfl
  · refine ⟨fun hends => (by cases hends), ?_, fun hcause => absurd rfl hcause,
      fun hcause => (by cases hcause)⟩
    intro reader halive hphase
    obtain rfl := Option.some.inj halive
    cases hphase

theorem explained_start : (start participant config w).Explained config w none := by
  rw [start]
  split
  · split
    · next hover =>
      apply explained_returned
      intro _
      exact enterDelay_eq_none_iff.mp hover
    · exact explained_of_none rfl rfl
  · exact explained_enter

theorem endsWell_close {result : Except Failure Unit} {reader : Option Reader} :
    (close result reader).endsWell = true ↔ result = .ok () := by
  cases reader <;> cases result <;> simp [close, endsWell]

theorem reader?_close {result : Except Failure Unit} {reader : Option Reader} :
    (close result reader).reader? = reader := by
  cases reader <;> rfl

theorem reader?_afterSender {reader : Option Reader} {sender : Sender} :
    (afterSender reader sender).reader? = reader := by
  rw [afterSender]
  split
  · exact reader?_close
  · rfl

/-- What follows the barrier has the cause of the step, if it ends the session. -/
theorem explained_barrier {barrier barrier' : BarrierPhase} {reader : Option Reader}
    {act : BarrierAct} (hbarrier : barrier.step config w act = some barrier')
    (hreader : ∀ r, reader = some r → r.phase = .returned (.ok ()) → w.IsOver config) :
    (afterBarrier config w reader barrier').Explained config w
      ((afterBarrier config w reader barrier').endCause? w (.barrier act)) := by
  have hwait : act ≠ .deadline →
      ∀ session : Session, session.endCause? w (.barrier act) = none := by
    intro hact session
    cases act with
    | deadline => exact absurd rfl hact
    | _ => rfl
  by_cases hact : act = .deadline
  -- the wait times out, and the session is over without an error
  · subst hact
    have hreturned : barrier' = .returned .timedOut := by
      cases barrier with
      | armed seen =>
        simp only [BarrierPhase.step, Option.ite_none_right_eq_some, Option.some.injEq] at hbarrier
        exact hbarrier.2.symm
      | _ => simp [BarrierPhase.step] at hbarrier
    subst hreturned
    change (close (.ok ()) reader).Explained config w (some (.readinessTimeout w.stop))
    refine ⟨fun _ hcause => (by cases hcause), fun r hr => hreader r ?_,
      fun _ => endsWell_close.mpr rfl, fun hcause => ?_⟩
    · rwa [reader?_close] at hr
    · exact EndCause.readinessTimeout.inj (Option.some.inj hcause)
  -- the session goes on, or the wait is stopped
  · rw [hwait hact]
    refine ⟨fun hends _ => ?_, fun r hr => hreader r ?_, fun hcause => absurd rfl hcause,
      fun hcause => (by cases hcause)⟩
    · rw [afterBarrier.eq_def] at hends
      split at hends
      · rcases openSender_cases config w reader with ⟨interval, -, -, heq⟩ | heq <;>
          rw [heq] at hends <;> cases hends
      · next result hready =>
        cases result with
        | ready => exact absurd rfl hready
        | timedOut => exact absurd (BarrierPhase.step_timedOut hbarrier).1 hact
        | stopped => exact .inl (BarrierPhase.step_stopped hbarrier)
      · cases hends
    · rw [afterBarrier.eq_def] at hr
      split at hr
      · rcases openSender_cases config w reader with ⟨interval, -, -, heq⟩ | heq <;>
          rw [heq] at hr <;> exact hr
      · rwa [reader?_close] at hr
      · exact hr

/-- A sender that ends the session well was told to, unless there is a cause. -/
theorem isOver_of_sender {sender sender' : Sender} {act : SenderAct}
    (h : sender.step P participant config w act = some (sender', out))
    (hends : session'.endsWell = true) (hcause : session'.endCause? w (.sender act) = none) :
    w.IsOver config := by
  cases Sender.steps_of_step h with
  | stopped _ hstop => exact .inl hstop
  | deadline _ hdue => exact .inr hdue
  | _ => simp [endCause?, hends] at hcause

theorem endsWell_of_sender {act : SenderAct} (h : session'.endCause? w (.sender act) ≠ none) :
    session'.endsWell = true := by
  cases act with
  | stopped | deadline => exact absurd rfl h
  | tick | write | published =>
    simp only [endCause?] at h
    by_contra hends
    exact h (if_neg hends)

/-- No step of a sender is the end of a wait. -/
theorem endCause?_sender_ne {act : SenderAct} {stopped : Bool} :
    session'.endCause? w (.sender act) ≠ some (.readinessTimeout stopped) := by
  cases act with
  | stopped | deadline => simp [endCause?]
  | tick | write | published =>
    simp only [endCause?]
    split <;> simp

/-- **A step of a session keeps it explained.** -/
theorem explained_step {act : SessionAct} (hs : session.Explained config w cause)
    (h : session.step P participant config w act = some (session', out)) :
    session'.Explained config w ((session'.endCause? w act).or cause) := by
  cases steps_of_step h with
  | enter endsAt hdue =>
    rw [hs.cause_eq_none rfl]
    exact explained_enter
  | delayCut endsAt hover =>
    rw [hs.cause_eq_none rfl]
    apply explained_returned
    intro _
    exact hover
  | barrier barrier barrier' reader a hbarrier =>
    rw [hs.cause_eq_none rfl, Option.or_none]
    exact explained_barrier hbarrier hs.reader
  | sender sender sender' reader a out hsender =>
    -- the cause is there if and only if the sender ends the session by itself
    rw [hs.cause_eq_none rfl, Option.or_none]
    refine ⟨isOver_of_sender hsender, fun r hr => hs.reader r ?_, endsWell_of_sender,
      fun hcause => absurd hcause endCause?_sender_ne⟩
    rwa [reader?_afterSender] at hr
  | reader session reader reader' a out halive hreader =>
    have hover : reader'.phase = .returned (.ok ()) → w.IsOver config :=
      Reader.isOver_of_step hreader
    have hput : ∀ r, some reader' = some r → r.phase = .returned (.ok ()) → w.IsOver config :=
      fun r hr hphase => hover (Option.some.inj hr ▸ hphase)
    change (session.putReader reader').Explained config w cause
    cases session with
    -- the session ends with its reader
    | receiving r =>
      rw [hs.cause_eq_none rfl]
      exact explained_afterReader hover
    | waiting | sending | panicked => exact ⟨hs.ended, hput, hs.caused, hs.stopped⟩
    | joining r result => cases result <;> exact ⟨hs.ended, hput, hs.caused, hs.stopped⟩
    | slowConnecting | returned => cases halive
  | readerDone sender reader result hphase =>
    -- the reader was told to stop before
    rw [hs.cause_eq_none rfl]
    apply explained_returned
    rintro rfl
    exact hs.reader reader rfl hphase
  | readerJoined reader result =>
    cases result <;>
      exact ⟨hs.ended, fun _ hreader => (by cases hreader), hs.caused, hs.stopped⟩

end Session

/-! ## The causes of a participant -/

namespace Participant

/-- The cause after a step of a participant. -/
def causeAfter (p' : Participant) (w : World) (cause : Option EndCause) :
    ParticipantAct → Option EndCause
  | .session act => (p'.session?.bind fun session => session.endCause? w act).or cause
  | _ => cause

/-- The session of a participant is explained, and with a cause it is the last one. -/
structure Explained (config : AppConfig) (w : World) (cause : Option EndCause)
    (p : Participant) : Prop where
  session : ∀ session, p.phase = .connected session → session.Explained config w cause
  last : cause ≠ none → p.phase = .returned (.ok ()) ∨ ∃ session, p.phase = .connected session

variable {w w' : World} {p p' : Participant} {cause : Option EndCause} {act : ParticipantAct}
  {out : List Effect}

theorem Explained.mono (h : p.Explained config w cause)
    (hover : w.IsOver config → w'.IsOver config) (hstop : w.stop = true → w'.stop = true) :
    p.Explained config w' cause :=
  ⟨fun session hphase => (h.session session hphase).mono hover hstop, h.last⟩

theorem explained_of_session? (h : p.session? = none) : p.Explained config w none := by
  refine ⟨fun session hphase => ?_, fun hcause => absurd rfl hcause⟩
  rw [session?, hphase] at h
  cases h

/-- **A step of a participant keeps it explained.** -/
theorem explained_step (hp : p.Explained config w cause)
    (h : p.step P participant config w act = some (p', out)) :
    p'.Explained config w (p'.causeAfter w cause act) := by
  -- there is no cause before the session
  have hnone : ∀ phase, p.phase = phase → phase ≠ .returned (.ok ()) →
      (∀ session, phase ≠ .connected session) → cause = none := by
    intro phase hphase hreturned hconnected
    by_contra hcause
    rcases hp.last hcause with hlast | ⟨session, hlast⟩
    · exact hreturned (hphase.symm.trans hlast)
    · exact hconnected session (hphase.symm.trans hlast)
  have hstart : (p.goto (.connected (Session.start participant config w))).Explained config w
      none := by
    refine ⟨fun session hphase => ?_, fun hcause => absurd rfl hcause⟩
    obtain rfl := ParticipantPhase.connected.inj hphase
    exact Session.explained_start
  cases steps_of_step h with
  | session session session' a out hphase hsession =>
    refine ⟨fun other hother => ?_, fun _ => .inr ⟨session', rfl⟩⟩
    obtain rfl := ParticipantPhase.connected.inj hother
    exact Session.explained_step (hp.session session hphase) hsession
  | sessionOver result hphase =>
    change (p.goto (afterSession config w result)).Explained config w cause
    refine ⟨fun session hconnected => ?_, fun hcause => .inl ?_⟩
    · have hbetween : (p.goto (afterSession config w result)).session? = none :=
        session?_of_isBetween (isBetween_afterSession result)
      rw [session?, hconnected] at hbetween
      cases hbetween
    · have hends := (hp.session _ hphase).caused hcause
      cases result with
      | ok _ => rfl
      | error failure => cases hends
  | openSession _ hphase | notified hphase =>
    obtain rfl := hnone _ hphase (by simp) (by simp)
    exact hstart
  | enter _ hphase =>
    obtain rfl := hnone _ hphase (by simp) (by simp)
    exact explained_of_session? (session?_of_isBetween isBetween_enter)
  | retry factor failure hphase =>
    obtain rfl := hnone _ hphase (by simp) (by simp)
    exact explained_of_session? (session?_of_isBetween (isBetween_retry failure factor))
  | startOver _ hphase | ramp _ _ hphase | redial _ _ hphase | rampCut _ hphase
  | backoffCut _ _ hphase | leave hphase | dial hphase | connect _ hphase | reconnect _ hphase
  | openRequired _ hphase | connectRetried _ _ hphase | connectFails _ _ hphase
  | dialStopped hphase | dialDeadline hphase | marked hphase =>
    obtain rfl := hnone _ hphase (by simp) (by simp)
    exact explained_of_session? rfl

/-- A participant disconnects at the end of its session. -/
theorem exists_of_disconnected (h : p.step P participant config w act = some (p', out))
    {id : String} {reason : DisconnectReason}
    (hemit : .emit (.participantDisconnected id reason) ∈ out) :
    act = .sessionOver ∧ ∃ result, p.phase = .connected (.returned result) ∧
      reason = disconnectReason result w.stop (config.run.duration ≤ w.now) := by
  cases steps_of_step h with
  | sessionOver result hphase =>
    refine ⟨rfl, result, hphase, ?_⟩
    have hreason : Effect.emit (.participantDisconnected id reason) =
        .emit (.participantDisconnected participant.id
          (disconnectReason result w.stop (config.run.duration ≤ w.now))) := by
      cases result with
      | ok _ => simpa [recordSessionOver] using hemit
      | error failure => grind [recordSessionOver]
    exact (LifecycleEvent.participantDisconnected.inj (Effect.emit.inj hreason)).2
  | session session session' a out hphase hsession =>
    exact (Session.step_ofSession hsession _ hemit).elim
  | connect => simp [countConnected] at hemit
  | openRequired sample | openSession sample =>
    cases sample <;> simp [recordConnected, recordSample] at hemit
  | connectRetried error | connectFails error => grind [recordConnectFailed]
  | _ => simp at hemit

end Participant

/-! ## The causes of a run -/

/-- A run, with the cause of the end of each task's session. -/
structure Watched where
  run : Run
  causes : ℕ → Option EndCause

namespace Watched

/-- A run that starts. -/
def new (run : Run) : Watched := ⟨run, fun _ => none⟩

/-- The causes after a step of the run. -/
def causesAfter (s : Watched) (run' : Run) : RunAct → ℕ → Option EndCause
  | .task i act => Function.update s.causes i (run'.tasks[i]?.elim (s.causes i) fun task =>
      task.state.causeAfter s.run.world (s.causes i) act)
  | _ => s.causes

variable (P config)

/-- The runs of a configuration, with the causes. -/
def machine : Machine Watched RunAct where
  step s act := (s.run.step P config act).map fun run' => ⟨run', s.causesAfter run' act⟩

/-- A reason names the cause: an external stop only if the stop signal is up, and a readiness
timeout if the wait timed out while it was down. -/
def Names (s : Watched) (act : RunAct) : Prop :=
  ∀ i a task state out id reason, act = .task i a → s.run.tasks[i]? = some task →
    task.state.step P task.participant config s.run.world a = some (state, out) →
    .emit (.participantDisconnected id reason) ∈ out →
    (reason = .externalStop → s.run.world.stop = true) ∧
    (s.causes i = some (.readinessTimeout false) → reason = .readinessTimeout)

/-- The cause can be guessed when a session is over: its wait did not time out while the stop signal
was down, and if it disconnected abruptly, the stop signal or the deadline of the run is up. -/
def Guessable (s : Watched) (act : RunAct) : Prop :=
  ∀ i task result, act = .task i .sessionOver → s.run.tasks[i]? = some task →
    task.state.phase = .connected (.returned result) →
    s.causes i ≠ some (.readinessTimeout false) ∧
      (s.causes i = some .abruptDisconnect → s.run.world.IsOver config)

/-- Every task is explained by its cause. -/
def Explained (s : Watched) : Prop :=
  ∀ (i : ℕ) task, s.run.tasks[i]? = some task →
    task.state.Explained config s.run.world (s.causes i)

variable {P config} {s t : Watched} {act : RunAct}

theorem exists_of_step (h : (machine P config).step s act = some t) :
    ∃ run', s.run.step P config act = some run' ∧ t = ⟨run', s.causesAfter run' act⟩ := by
  obtain ⟨run', hstep, rfl⟩ := Option.map_eq_some_iff.mp h
  exact ⟨run', hstep, rfl⟩

theorem explained_step (hs : s.Explained config) (h : (machine P config).step s act = some t) :
    t.Explained config := by
  obtain ⟨run', hstep, rfl⟩ := exists_of_step h
  have hover : s.run.world.IsOver config → run'.world.IsOver config :=
    fun hover => Run.isOver_step hover hstep
  have hstop : s.run.world.stop = true → run'.world.stop = true :=
    fun hstop => Run.stop_step hstop hstep
  rcases Run.step_cases hstep with ⟨j, a, task, state, out, rfl, htask, htaskStep, rfl⟩ |
    ⟨hact, hidle⟩
  · have hget : (s.run.advance j task state out).tasks[j]? =
        some { task with state, log := task.log ++ out } := Run.getElem?_advance htask
    intro i other hother
    by_cases hij : i = j
    · subst hij
      obtain rfl := Option.some.inj (hget.symm.trans hother)
      simp only [causesAfter, hget, Option.elim_some, Function.update_self]
      exact (Participant.explained_step (hs i task htask) htaskStep).mono hover hstop
    · simp only [causesAfter, Function.update_of_ne hij]
      simp only [Run.advance, List.getElem?_set_ne (Ne.symm hij)] at hother
      exact (hs i other hother).mono hover hstop
  · have hcauses : s.causesAfter run' act = s.causes := by
      cases act with
      | task i a => exact absurd rfl (hact i a)
      | _ => rfl
    intro i task htask
    simp only [hcauses]
    rw [hidle.tasks] at htask
    exact (hs i task htask).mono hover hstop

theorem explained_new {delays : List Duration} {stop : Bool} :
    (new (Run.spawn config delays stop)).Explained config := by
  intro i task htask
  obtain ⟨-, -, delay, hstate⟩ := Run.exists_of_mem_spawn (List.mem_of_getElem? htask)
  rw [hstate]
  exact Participant.explained_of_session? rfl

/-! ## Reasons and causes -/

/-- An error is no external stop. -/
theorem disconnectReason_error (failure : Failure) (stop pastDeadline : Bool) :
    disconnectReason (.error failure) stop pastDeadline ≠ .externalStop := by
  rw [disconnectReason]
  split <;> simp

/-- A session that ended well has no reason of its own. -/
theorem disconnectReason_ok (pastDeadline : Bool) :
    disconnectReason (.ok ()) false pastDeadline =
      if pastDeadline then .runDeadline else .externalStop := rfl

/-- A session that ended well is never said to have waited too long. -/
theorem disconnectReason_ok_ne_readinessTimeout {stop pastDeadline : Bool} :
    disconnectReason (.ok ()) stop pastDeadline ≠ .readinessTimeout := by
  cases stop <;> cases pastDeadline <;> decide

/-- **A reason names the cause** exactly when the cause can be guessed. -/
theorem names_step_iff (hs : s.Explained config) :
    s.Names P config act ↔ s.Guessable config act := by
  constructor
  · rintro hnames i task result rfl htask hphase
    have hstep : task.state.step P task.participant config s.run.world .sessionOver =
        some (task.state.goto (Participant.afterSession config s.run.world result),
          Participant.recordSessionOver task.participant config s.run.world task.state
            result) := by
      simp only [Participant.step, hphase]
    obtain ⟨hexternal, hreadiness⟩ := hnames i _ task _ _ _ _ rfl htask hstep
      (List.mem_append_left _ (List.mem_cons_of_mem _ List.mem_cons_self))
    have hexplained := (hs i task htask).session _ hphase
    -- with a cause, the session ended well
    have hok : s.causes i ≠ none → result = .ok () := by
      intro hcause
      have hends := hexplained.caused hcause
      cases result with
      | ok _ => rfl
      | error failure => cases hends
    constructor
    · intro hcause
      obtain rfl := hok (by rw [hcause]; simp)
      exact disconnectReason_ok_ne_readinessTimeout (hreadiness hcause)
    · intro hcause
      obtain rfl := hok (by rw [hcause]; simp)
      by_contra hearly
      obtain ⟨hdown, hbefore⟩ := not_or.mp hearly
      refine hdown (hexternal ?_)
      rw [Bool.eq_false_of_not_eq_true hdown, disconnectReason_ok, decide_eq_false hbefore]
      rfl
  · rintro hguessable i a task state out id reason rfl htask hstep hemit
    obtain ⟨rfl, result, hphase, rfl⟩ := Participant.exists_of_disconnected hstep hemit
    have hexplained := (hs i task htask).session _ hphase
    obtain ⟨hreadiness, habrupt⟩ := hguessable i task result rfl htask hphase
    refine ⟨fun hexternal => ?_, fun hcause => absurd hcause hreadiness⟩
    cases result with
    | error failure => exact absurd hexternal (disconnectReason_error _ _ _)
    | ok _ =>
      -- stop or the deadline is up, whatever the cause is
      have hover : s.run.world.IsOver config := by
        cases hcause : s.causes i with
        | none => exact hexplained.ended rfl hcause
        | some cause =>
          cases cause with
          | readinessTimeout stopped =>
            cases stopped with
            | false => exact absurd hcause hreadiness
            | true => exact .inl (hexplained.stopped hcause)
          | abruptDisconnect => exact habrupt hcause
      by_contra hdown
      have hdue := hover.resolve_left hdown
      rw [Bool.eq_false_of_not_eq_true hdown, disconnectReason_ok, decide_eq_true hdue] at hexternal
      cases hexternal

/-- **The reasons of a run name the causes** exactly when the causes can be guessed. -/
theorem names_iff {started : ℤ} {shuffle : ℕ → List Duration → List Duration}
    {options : SafetyOptions} {stop : Bool}
    {r : Run} (h : Run.start config started shuffle options stop = .ok r)
    (acts : List RunAct) :
    (machine P config).Along (Names P config) (new r) acts ↔
      (machine P config).Along (Guessable config) (new r) acts := by
  obtain ⟨-, delays, rfl⟩ := Run.exists_of_mem_start h
  exact Machine.along_congr (fun _ _ _ => explained_step) (fun _ _ => names_step_iff) explained_new

/-! ## A participant that waits too long -/

/-- A sender that waits for a participant that does not come. -/
def forsaken : AppConfig where
  authorization := { acknowledged := true }
  run := { clients := 2 }
  participants := [{ id := "alice", role := .sendOnly }, { id := "bob" }]
  synchronization := { waitForReady := ["bob"], timeout := some (Duration.fromSecs 10) }

/-- The sender connects and waits, as the main task does; the other one is still dialing. -/
def waiting : List RunAct :=
  [.barrier .check, .barrier .arm, .task 1 .start, .task 1 .delayOver, .task 1 .enterLoop,
    .task 0 .start, .task 0 .delayOver, .task 0 .enterLoop, .task 0 (.connected 0),
    .task 0 .sampled, .task 0 (.session (.barrier .check)), .task 0 (.session (.barrier .arm))]

/-- The sender waits until the barrier times out. -/
def expiring : List RunAct :=
  waiting ++ [.elapse (Duration.fromSecs 10), .task 0 (.session (.barrier .deadline))]

/-- The sender is stopped before. -/
def stopping : List RunAct :=
  waiting ++ [.stop, .forward, .task 0 (.session (.barrier .stopped))]

theorem start_forsaken :
    Run.start forsaken 0 (fun _ => id) {} false = .ok (Run.spawn forsaken [0, 0] false) := rfl

/-- A sender that is stopped names the stop. -/
theorem names_iff_stopping :
    (machine Reference.platform forsaken).Along (Names Reference.platform forsaken)
      (new (Run.spawn forsaken [0, 0] false)) (stopping ++ [.task 0 .sessionOver]) := by
  rw [names_iff start_forsaken]
  have hstopped : (((machine Reference.platform forsaken).exec
      (new (Run.spawn forsaken [0, 0] false)) stopping).any fun s =>
        decide (s.causes 0 = none)) = true := by
    decide +kernel
  obtain ⟨s, hexec, hs⟩ := (Option.any_eq_true _ _).mp hstopped
  have hnone : s.causes 0 = none := of_decide_eq_true hs
  refine (Machine.along_append hexec).mpr ⟨Machine.along_of_forall ?_, ?_, fun _ _ => trivial⟩
  · -- no session is over before
    rintro t act hact i task result rfl
    simp [stopping, waiting] at hact
  · intro i task result hact _ _
    obtain ⟨rfl, -⟩ := RunAct.task.inj hact
    rw [hnone]
    exact ⟨nofun, nofun⟩

/-- A sender that waits too long for the others was stopped from outside, as it says. -/
theorem timeout_unnamed :
    Run.start forsaken 0 (fun _ => id) {} false = .ok (Run.spawn forsaken [0, 0] false) ∧
      ∃ s, (machine Reference.platform forsaken).exec (new (Run.spawn forsaken [0, 0] false))
          expiring = some s ∧
        s.causes 0 = some (.readinessTimeout false) ∧ s.run.world.stop = false ∧
        (∃ task state out, s.run.tasks[0]? = some task ∧
          task.state.step Reference.platform task.participant forsaken s.run.world .sessionOver =
            some (state, out) ∧
          .emit (.participantDisconnected "alice" .externalStop) ∈ out) ∧
        ¬ (machine Reference.platform forsaken).Along (Names Reference.platform forsaken)
          (new (Run.spawn forsaken [0, 0] false)) (expiring ++ [.task 0 .sessionOver]) := by
  have hexpired : (((machine Reference.platform forsaken).exec
      (new (Run.spawn forsaken [0, 0] false)) expiring).any fun s =>
        decide (s.causes 0 = some (.readinessTimeout false)) && !s.run.world.stop &&
        s.run.tasks[0]?.any fun task =>
          (task.state.step Reference.platform task.participant forsaken s.run.world
            .sessionOver).any fun p =>
              decide (.emit (.participantDisconnected "alice" .externalStop) ∈ p.2)) = true := by
    decide +kernel
  obtain ⟨s, hexec, hs⟩ := (Option.any_eq_true _ _).mp hexpired
  simp only [Bool.and_eq_true, decide_eq_true_eq, Option.any_eq_true, Bool.not_eq_true'] at hs
  obtain ⟨⟨hcause, hstop⟩, task, htask, ⟨state, out⟩, hstep, hemit⟩ := hs
  refine ⟨start_forsaken, s, hexec, hcause, hstop, ⟨task, state, out, htask, hstep, hemit⟩, ?_⟩
  intro halong
  have hnames := ((Machine.along_append hexec).mp halong).2.1
  cases (hnames 0 _ task state out _ _ rfl htask hstep hemit).2 hcause

end Watched

end TakBench
