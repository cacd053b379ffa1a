import TakBench.Names
import TakBench.Protocol.Reference
import TakBench.Scenario.Counters
import TakBench.Scenario.Connect
import TakBench.Scenario.Outcome
import TakBench.Scenario.TlsFailures

/-!
# The connections of a run

A run takes the result of a dial as it comes. In the program the result is the one that `connect`
gives to the participant, with the TLS files that its name selects. So each connection of a run is
the one that the configuration asks for: where TLS is off nothing of it is counted or reported,
and where TLS is on, but its files are not complete, nothing is ever sent.

## Main definitions

* `Channel`: a connection, with what its dial met
* `Dialed`, `Dialed.machine`: runs whose dials are those of `connect`
* `Answered`: a result of a dial is one that `connect` gives

## Main results

* `Dialed.exists_exec`: they are runs
* `Dialed.channels_as_configured`: the connections of a run
-/

namespace TakBench

/-- A connection that was made, with what its dial met. -/
structure Channel (C K N : Type) where
  participant : ParticipantConfig
  tls : TlsConfig
  outside : Outside C K N
  stream : AsyncStream C K N

/-- The connection was made by a participant of the configuration with its files, and is the one
that the configuration asks for. -/
structure Channel.AsConfigured {C K N : Type} (config : AppConfig) (channel : Channel C K N) :
    Prop where
  participant : channel.participant ∈ participants config
  tls : config.tls.forParticipant channel.participant.id = .ok channel.tls
  meets : channel.stream.Meets channel.outside config.target channel.tls

/-- A run, with the connections that were made. -/
structure Dialed (C K N : Type) where
  run : Run
  channels : List (Channel C K N)

inductive DialedAct (C K N : Type) where
  | run (act : RunAct)
  /-- the dial of a participant is done -/
  | dial (i : ℕ) (outside : Outside C K N) (handshakeTime : Duration)

/-- What the participant sees of its dial. -/
def dialResult {C K N : Type} (handshakeTime : Duration) :
    Except (ConnectError × Failure) (AsyncStream C K N) → ParticipantAct
  | .ok _ => .connected handshakeTime
  | .error (error, source) => .connectFailed error source

/-- The connections that are made in a step. -/
def ParticipantAct.connections : ParticipantAct → ℕ
  | .connected _ => 1
  | _ => 0

/-- Is a dial done in the step? -/
def RunAct.isDialed : RunAct → Bool
  | .task _ (.connected _) | .task _ (.connectFailed _ _) => true
  | _ => false

variable {P : Platform} {config : AppConfig} {C K N : Type}

/-- A result of a dial is one that `connect` gives to the participant. -/
def Answered (C K N : Type) (config : AppConfig) (participant : ParticipantConfig) :
    ParticipantAct → Prop
  | .connected _ => ∃ (o : Outside C K N) (tls : TlsConfig) (stream : AsyncStream C K N),
      config.tls.forParticipant participant.id = .ok tls ∧
        connect o config.target tls = .ok stream
  | .connectFailed error source => ∃ (o : Outside C K N) (tls : TlsConfig),
      config.tls.forParticipant participant.id = .ok tls ∧
        connect o config.target tls = .error (error, source)
  | _ => True

theorem answered_of_isDialed {participant : ParticipantConfig} {i : ℕ} {act : ParticipantAct}
    (h : (RunAct.task i act).isDialed = false) : Answered C K N config participant act := by
  cases act with
  | connected => cases h
  | connectFailed => cases h
  | _ => trivial

/-! ## TLS of a participant -/

/-- The templates neither enable TLS nor choose the CA, and they complete what is complete. -/
theorem TlsConfig.forParticipant_keeps {tls resolved : TlsConfig} {id : String}
    (h : tls.forParticipant id = .ok resolved) :
    resolved.enabled = tls.enabled ∧ resolved.ca = tls.ca ∧
      (resolved.isComplete = true ↔ tls.isComplete = true) := by
  cases hcert : tls.clientCertTemplate with
  | none =>
    cases hkey : tls.clientKeyTemplate with
    | none =>
      rw [forParticipant, hcert, hkey] at h
      obtain rfl := Except.ok.inj h
      exact ⟨rfl, rfl, Iff.rfl⟩
    | some key =>
      rw [forParticipant, hcert, hkey] at h
      cases h
  | some cert =>
    cases hkey : tls.clientKeyTemplate with
    | none =>
      rw [forParticipant, hcert, hkey] at h
      cases h
    | some key =>
      rw [forParticipant, hcert, hkey] at h
      simp only [] at h
      split at h
      · cases h
      · next hchecks =>
        -- with templates, no file is given
        obtain rfl := Except.ok.inj h
        simp only [Bool.or_eq_true, not_or, Bool.not_eq_true, Option.isSome_eq_false_iff,
          Option.isNone_iff_eq_none] at hchecks
        refine ⟨rfl, rfl, ?_⟩
        simp [isComplete, hchecks.1.1.1.1, hchecks.1.1.1.2]

/-! ## Runs with their dials -/

namespace Dialed

variable (P config) in
/-- A step of a run; a dial is done as `connect` says. -/
def step (d : Dialed C K N) : DialedAct C K N → Option (Dialed C K N)
  | .run act =>
    if act.isDialed then none
    else (d.run.step P config act).map fun run => { d with run }
  | .dial i outside handshakeTime =>
    match d.run.tasks[i]? with
    | none => none
    | some task =>
      -- the templates are resolved before the loop of `run_participant`
      match config.tls.forParticipant task.participant.id with
      | .error _ => none
      | .ok tls =>
        let result := connect outside config.target tls
        (d.run.step P config (.task i (dialResult handshakeTime result))).map fun run =>
          { run
            channels := d.channels ++
              (result.toOption.map fun stream => ⟨task.participant, tls, outside, stream⟩).toList }

variable (P config) in
/-- The runs of a configuration, with their dials. -/
def machine (C K N : Type) : Machine (Dialed C K N) (DialedAct C K N) where
  step := step P config

variable {d d' : Dialed C K N} {act : DialedAct C K N} {acts : List (DialedAct C K N)}

/-- A step of a run with its dials: a dial is answered by `connect`, and one that is answered well
adds its connection. -/
inductive Steps (P : Platform) (config : AppConfig) (d d' : Dialed C K N) : Prop where
  | quiet (act : RunAct) (hact : act.isDialed = false)
      (hstep : d.run.step P config act = some d'.run)
      (hchannels : d'.channels = d.channels)
  | fails (i : ℕ) (task : Task) (error : ConnectError) (source : Failure)
      (hget : d.run.tasks[i]? = some task)
      (hanswered : Answered C K N config task.participant (.connectFailed error source))
      (hstep : d.run.step P config (.task i (.connectFailed error source)) = some d'.run)
      (hchannels : d'.channels = d.channels)
  | connects (i : ℕ) (task : Task) (handshakeTime : Duration) (channel : Channel C K N)
      (hget : d.run.tasks[i]? = some task) (hparticipant : channel.participant = task.participant)
      (htls : config.tls.forParticipant task.participant.id = .ok channel.tls)
      (hconnect : connect channel.outside config.target channel.tls = .ok channel.stream)
      (hstep : d.run.step P config (.task i (.connected handshakeTime)) = some d'.run)
      (hchannels : d'.channels = d.channels ++ [channel])

theorem steps_of_step (h : d.step P config act = some d') : Steps P config d d' := by
  cases act with
  | run act =>
    rw [step] at h
    split at h
    · cases h
    · next hact =>
      obtain ⟨run, hstep, rfl⟩ := Option.map_eq_some_iff.mp h
      exact .quiet act (Bool.not_eq_true _ ▸ hact) hstep rfl
  | dial i outside handshakeTime =>
    simp only [step] at h
    split at h
    · cases h
    · next task hget =>
      split at h
      · cases h
      · next tls htls =>
        obtain ⟨run, hstep, rfl⟩ := Option.map_eq_some_iff.mp h
        cases hconnect : connect outside config.target tls with
        | error failure =>
          obtain ⟨error, source⟩ := failure
          rw [hconnect] at hstep
          exact .fails i task error source hget ⟨outside, tls, htls, hconnect⟩ hstep
            (List.append_nil _)
        | ok stream =>
          rw [hconnect] at hstep
          exact .connects i task handshakeTime ⟨task.participant, tls, outside, stream⟩ hget rfl
            htls hconnect hstep rfl

/-- Each step is one of the run, and each dial in it is answered by `connect`. -/
theorem exists_run_step (h : d.step P config act = some d') :
    ∃ a, d.run.step P config a = some d'.run ∧ ∀ i b task, a = .task i b →
      d.run.tasks[i]? = some task → Answered C K N config task.participant b := by
  cases steps_of_step h with
  | quiet a hact hstep hchannels =>
    refine ⟨a, hstep, ?_⟩
    rintro i b task rfl -
    exact answered_of_isDialed hact
  | fails i task error source hget hanswered hstep hchannels =>
    refine ⟨_, hstep, ?_⟩
    rintro j b other hb hother
    obtain ⟨rfl, rfl⟩ := RunAct.task.inj hb
    obtain rfl := Option.some.inj (hget.symm.trans hother)
    exact hanswered
  | connects i task handshakeTime channel hget hparticipant htls hconnect hstep hchannels =>
    refine ⟨_, hstep, ?_⟩
    rintro j b other hb hother
    obtain ⟨rfl, rfl⟩ := RunAct.task.inj hb
    obtain rfl := Option.some.inj (hget.symm.trans hother)
    exact ⟨_, _, _, htls, hconnect⟩

/-- **A run with its dials is a run.** -/
theorem exists_exec (h : (machine P config C K N).exec d acts = some d') :
    ∃ runActs, (Run.machine P config).exec d.run runActs = some d'.run := by
  induction acts generalizing d with
  | nil =>
    obtain rfl := Option.some.inj h
    exact ⟨[], rfl⟩
  | cons act acts ih =>
    obtain ⟨e, hstep, hrest⟩ := Machine.exec_cons.mp h
    obtain ⟨a, ha, -⟩ := exists_run_step hstep
    obtain ⟨runActs, hexec⟩ := ih hrest
    exact ⟨a :: runActs, Machine.exec_step ha hexec⟩

/-- **What the steps of a task preserve when its dials are answered by `connect`**, every run with
its dials preserves. -/
theorem forall_tasks {I : Task → Prop} {delays : List Duration} {stop : Bool}
    (hspawn : ∀ participant ∈ participants config, ∀ delay,
      I ⟨participant, Participant.spawn delay, []⟩)
    (hstep : ∀ w task a state out, I task → Answered C K N config task.participant a →
      task.participant ∈ participants config →
      task.state.step P task.participant config w a = some (state, out) →
      I { task with state, log := task.log ++ out })
    (h : (machine P config C K N).exec ⟨Run.spawn config delays stop, []⟩ acts = some d) :
    ∀ task ∈ d.run.tasks, I task := by
  have hall := Machine.exec_invariant (m := machine P config C K N)
    (I := fun d => ∀ task ∈ d.run.tasks, task.participant ∈ participants config ∧ I task) ?_ ?_ h
  · exact fun task htask => (hall task htask).2
  · intro s a t hs hst
    obtain ⟨runAct, hrun, hanswered⟩ := exists_run_step hst
    rcases Run.step_cases hrun with ⟨i, b, task, state, out, hb, hget, htaskStep, hadvance⟩ |
      ⟨-, hidle⟩
    · rw [hadvance]
      intro other hother
      rcases List.mem_or_eq_of_mem_set hother with hother | rfl
      · exact hs other hother
      · obtain ⟨hparticipant, htask⟩ := hs task (List.mem_of_getElem? hget)
        exact ⟨hparticipant, hstep _ task b state out htask (hanswered i b task hb hget)
          hparticipant htaskStep⟩
    · rw [hidle.tasks]
      exact hs
  · rintro ⟨participant, state, log⟩ htask
    obtain ⟨hparticipant, hlog, delay, hstate⟩ := Run.exists_of_mem_spawn htask
    simp only at hparticipant hlog hstate
    subst hlog hstate
    exact ⟨hparticipant, hspawn participant hparticipant delay⟩

end Dialed

/-! ## What is counted -/

/-- Is the counter one that a dial adds to which does not succeed? -/
def Counter.isOfFailedDial : Counter → Bool
  | .connectionAttempts | .connectionFailures | .tlsFailures | .reconnectFailures => true
  | _ => false

/-- Done by a dial that does not succeed. -/
def Effect.OfFailedDial : Effect → Prop
  | .add counter _ => counter.isOfFailedDial = true
  | _ => False

theorem Effect.added_of_ofFailedDial {e : Effect} {counter : Counter} (h : e.OfFailedDial)
    (hcounter : counter.isOfFailedDial = false) : e.added counter = 0 := by
  cases e with
  | add other n =>
    rw [added, if_neg]
    rintro rfl
    cases hcounter.symm.trans h
  | _ => exact h.elim

/-- The categories of a handshake, of the TLS files and of the TLS configuration. -/
def tlsCategories : List ErrorCategory :=
  [.tlsHandshakeFailed, .caLoadFailed, .clientCertificateLoadFailed, .clientKeyLoadFailed,
    .tlsConfigurationFailed]

namespace Participant

variable {participant : ParticipantConfig} {w : World} {p p' : Participant}
  {act : ParticipantAct} {out : List Effect}

/-- A success is counted for each connection, and for nothing else. -/
theorem total_successes (h : p.step P participant config w act = some (p', out)) :
    total (Effect.added .connectionSuccesses) out = act.connections := by
  cases steps_of_step h with
  | openRequired sample | openSession sample => cases sample <;> rfl
  | connectRetried error | connectFails error =>
    simp only [recordConnectFailed]
    split_ifs <;> simp [Effect.added, ParticipantAct.connections]
  | session session session' a out hphase hsession =>
    exact total_eq_zero fun e he =>
      Link.added_of_isNeutral (Session.step_ofSession hsession e he).isNeutral rfl
  | sessionOver result =>
    cases result with
    | ok _ => simp [recordSessionOver, Effect.added, ParticipantAct.connections]
    | error failure =>
      simp only [recordSessionOver]
      split_ifs <;> simp [Effect.added, ParticipantAct.connections]
  | _ => rfl

/-! ### Without TLS -/

/-- The first error of a connection in the failure is not one of TLS, and a failure without one is
not of the templates. -/
structure WithoutTls (failure : Failure) : Prop where
  plain : ∀ error ∈ connectError? failure, error.isTls = false
  resolved : connectError? failure = none → .tlsTemplate ∉ failure

theorem withoutTls_of_erases {failure : Failure} (h : Erases (.error failure)) :
    WithoutTls failure := by
  refine ⟨fun error herror => ?_, fun _ => h.2⟩
  obtain ⟨cause, hcause, hsome⟩ := List.exists_of_findSome?_eq_some herror
  have hnone := List.any_eq_false.mp h.1 cause hcause
  cases cause with
  | connect other =>
    obtain rfl := Option.some.inj hsome
    exact Bool.eq_false_iff.mpr hnone
  | _ => cases hsome

theorem not_mem_tlsCategories_failed : ErrorCategory.participantTaskFailed ∉ tlsCategories := by
  decide

theorem category_of_withoutTls {failure : Failure} (h : WithoutTls failure) (id : String) :
    (classifyParticipantError id failure).category ∉ tlsCategories := by
  unfold classifyParticipantError
  split
  · next error herror =>
    have hplain := h.plain error herror
    cases error with
    | tcp => simp [ConnectError.category, tlsCategories]
    | _ => cases hplain
  · next hnone =>
    rw [if_neg (h.resolved hnone)]
    split
    · next error _ => cases error <;> simp [ParticipantRuntimeError.classify, tlsCategories]
    · exact not_mem_tlsCategories_failed

/-- What a participant fails with, now or after a backoff. -/
def failure? (p : Participant) : Option Failure :=
  match p.phase with
  | .retrying failure | .backingOff _ failure | .returned (.error failure) => some failure
  | _ => none

/-- A participant without TLS has counted no failure of it, and does not fail with one. -/
structure Plain (p : Participant) (log : List Effect) : Prop where
  erased : p.Erased
  total_eq : total (Effect.added .tlsFailures) log = 0
  withoutTls : ∀ failure ∈ p.failure?, WithoutTls failure

theorem failure?_cutBackoff {failure failure' : Failure}
    (h : failure' ∈ (p.goto (cutBackoff w failure)).failure?) : failure' = failure := by
  rw [cutBackoff] at h
  split at h
  · cases h
  · exact (Option.some.inj h).symm

theorem failure?_afterSession (failure : Failure) :
    (p.goto (afterSession config w (.error failure))).failure? = some failure := by
  simp only [afterSession]
  split <;> rfl

theorem withoutTls_runtime (error : ParticipantRuntimeError) : WithoutTls [.runtime error] :=
  ⟨fun error' herror => (by cases herror), fun _ => by simp⟩

theorem failure?_retry {failure failure' : Failure} {factor : ℚ}
    (h : failure' ∈ (p.retry config w failure factor).failure?) :
    failure' = failure ∨ failure' = [.runtime .reconnectExhausted] := by
  rw [retry] at h
  split at h
  · exact .inr (Option.some.inj h).symm
  · rw [backOff] at h
    split at h
    · cases h
    · split at h
      · exact .inl (failure?_cutBackoff (p := { p with attempt := p.attempt + 1 }) h)
      · exact .inl (Option.some.inj h).symm

/-- **A step without TLS** counts no failure of TLS. -/
theorem plain_step {log : List Effect} (hdisabled : config.tls.enabled = false)
    (hresolves : ∃ tls, config.tls.forParticipant participant.id = .ok tls)
    (hanswered : Answered C K N config participant act) (hp : p.Plain log)
    (h : p.step P participant config w act = some (p', out)) : p'.Plain (log ++ out) := by
  obtain ⟨herased, hnone⟩ := erased_step hp.erased h
  have hdial : ∀ error source, act = .connectFailed error source → error.isTls = false := by
    rintro error source rfl
    obtain ⟨o, tls, htls, hconnect⟩ := hanswered
    by_contra htrue
    have henabled := connect_isTls hconnect (Bool.eq_true_of_not_eq_false htrue)
    rw [(TlsConfig.forParticipant_keeps htls).1, hdisabled] at henabled
    cases henabled
  refine ⟨herased, ?_, ?_⟩
  · rw [total_append, hp.total_eq, Nat.zero_add]
    by_cases hact : ∃ error source, act = .connectFailed error source
    · obtain ⟨error, source, rfl⟩ := hact
      have hplain := hdial error source rfl
      cases steps_of_step h with
      | connectRetried | connectFails =>
        rw [recordConnectFailed, if_neg (by simp [hplain])]
        split <;> simp [Effect.added]
    · exact hnone fun error source heq => hact ⟨error, source, heq⟩
  · intro failure hfailure
    have hconnect : ∀ error source, error.isTls = false →
        WithoutTls (.connect error :: source) := by
      refine fun error source hplain => ⟨fun error' herror' => ?_, fun hnone => by cases hnone⟩
      obtain rfl := Option.some.inj herror'
      exact hplain
    cases steps_of_step h with
    | enter endsAt hphase =>
      -- the templates are resolved
      obtain ⟨tls, htls⟩ := hresolves
      rw [enter, htls] at hfailure
      cases hfailure
    | backoffCut endsAt failure' hphase =>
      obtain rfl := failure?_cutBackoff hfailure
      exact hp.withoutTls failure (by simp [failure?, hphase])
    | connectRetried error source | connectFails error source =>
      obtain rfl := Option.some.inj hfailure
      exact hconnect error source (hdial error source rfl)
    | sessionOver result hphase =>
      have herases : Erases result := hp.erased (.returned result) (by simp [session?, hphase])
      cases result with
      | ok _ => cases hfailure
      | error failure' =>
        rw [failure?_afterSession] at hfailure
        obtain rfl := Option.some.inj hfailure
        exact withoutTls_of_erases herases
    | retry factor failure' hphase =>
      rcases failure?_retry hfailure with rfl | rfl
      · exact hp.withoutTls failure (by simp [failure?, hphase])
      · exact withoutTls_runtime _
    | _ => cases hfailure

/-! ### With TLS that is not complete -/

/-- A participant without a connection has done nothing but dial. -/
structure Shut (p : Participant) (log : List Effect) : Prop where
  isOpen_eq : p.isOpen = false
  dials : ∀ e ∈ log, e.OfFailedDial

theorem ofFailedDial_recordConnectFailed (error : ConnectError) :
    ∀ e ∈ recordConnectFailed config error, e.OfFailedDial := by
  rw [recordConnectFailed]
  split_ifs <;> simp [Effect.OfFailedDial, Counter.isOfFailedDial]

theorem isOpen_of_isBetween (h : p.isBetween = true) : p.isOpen = false := by
  obtain ⟨phase, attempt, recoveryStarted⟩ := p
  cases phase <;> first | rfl | cases h

/-- **Without a connection a participant only dials.** -/
theorem shut_step {log : List Effect} (hnone : ∀ handshakeTime, act ≠ .connected handshakeTime)
    (hp : p.Shut log) (h : p.step P participant config w act = some (p', out)) :
    p'.Shut (log ++ out) := by
  have hclosed : ∀ session, p.phase ≠ .connected session := by
    intro session hphase
    have hopen := hp.isOpen_eq
    rw [isOpen, hphase] at hopen
    cases hopen
  have hdone : p'.isOpen = false → (∀ e ∈ out, e.OfFailedDial) → p'.Shut (log ++ out) := by
    intro hisOpen hout
    refine ⟨hisOpen, fun e he => ?_⟩
    rcases List.mem_append.mp he with he | he
    · exact hp.dials e he
    · exact hout e he
  cases steps_of_step h with
  | enter endsAt => exact hdone (isOpen_of_isBetween isBetween_enter) (by simp)
  | backoffCut endsAt failure =>
    refine hdone ?_ (by simp)
    rw [cutBackoff]
    split <;> rfl
  | connect handshakeTime => exact absurd rfl (hnone handshakeTime)
  | connectRetried error | connectFails error =>
    exact hdone rfl (ofFailedDial_recordConnectFailed error)
  | reconnect _ hphase | openRequired _ hphase | openSession _ hphase | marked hphase
  | notified hphase =>
    have hopen := hp.isOpen_eq
    rw [isOpen, hphase] at hopen
    cases hopen
  | session session session' a out hphase => exact absurd hphase (hclosed _)
  | sessionOver result hphase => exact absurd hphase (hclosed _)
  | retry factor failure =>
    exact hdone (isOpen_of_isBetween (isBetween_retry failure factor)) (by simp)
  | dial => exact hdone rfl (by simp [Effect.OfFailedDial, Counter.isOfFailedDial])
  | _ => exact hdone rfl (by simp)

end Participant

/-! ## The connections -/

namespace Dialed

variable {d d' : Dialed C K N} {act : DialedAct C K N} {acts : List (DialedAct C K N)}

/-- What has been said of the connections so far. -/
structure Recorded (config : AppConfig) (d : Dialed C K N) : Prop where
  length_eq : d.channels.length = sumOver (Effect.added .connectionSuccesses) d.run.logs
  asConfigured : ∀ channel ∈ d.channels, channel.AsConfigured config
  configured : ∀ task ∈ d.run.tasks, task.participant ∈ participants config

/-- The count of successes after a step of a task. -/
theorem sumOver_successes {r r' : Run} {i : ℕ} {a : ParticipantAct}
    (h : r.step P config (.task i a) = some r') :
    sumOver (Effect.added .connectionSuccesses) r'.logs =
      sumOver (Effect.added .connectionSuccesses) r.logs + a.connections := by
  rcases Run.step_cases h with ⟨j, b, task, state, out, hact, hget, hstep, rfl⟩ | ⟨hact, -⟩
  · obtain ⟨rfl, rfl⟩ := RunAct.task.inj hact
    have hlog : r.logs[i]? = some task.log := by
      rw [Run.logs, List.getElem?_map, hget]
      rfl
    have hlogs : (r.advance i task state out).logs = r.logs.set i (task.log ++ out) :=
      List.map_set
    rw [hlogs, sumOver_set hlog, Participant.total_successes hstep]
  · exact absurd rfl (hact i a)

/-- **A step records the connection that it makes.** -/
theorem recorded_step (hd : d.Recorded config) (h : d.step P config act = some d') :
    d'.Recorded config := by
  have hconfigured : ∀ task ∈ d'.run.tasks, task.participant ∈ participants config := by
    obtain ⟨a, hstep, -⟩ := exists_run_step h
    exact Run.configured_invariant.run_step hd.configured hstep
  cases steps_of_step h with
  | quiet a hact hstep hchannels =>
    refine ⟨?_, hchannels ▸ hd.asConfigured, hconfigured⟩
    rw [hchannels, hd.length_eq]
    cases a with
    | task i b =>
      rw [sumOver_successes hstep]
      cases b with
      | connected => cases hact
      | _ => rfl
    | _ =>
      rcases Run.step_cases hstep with ⟨_, _, _, _, _, heq, -⟩ | ⟨-, hidle⟩
      · cases heq
      · rw [Run.logs, Run.logs, hidle.tasks]
  | fails i task error source hget hanswered hstep hchannels =>
    refine ⟨?_, hchannels ▸ hd.asConfigured, hconfigured⟩
    rw [hchannels, hd.length_eq, sumOver_successes hstep]
    rfl
  | connects i task handshakeTime channel hget hparticipant htls hconnect hstep hchannels =>
    refine ⟨?_, ?_, hconfigured⟩
    · rw [hchannels, List.length_append, hd.length_eq, sumOver_successes hstep]
      rfl
    · intro other hother
      rw [hchannels, List.mem_append, List.mem_singleton] at hother
      rcases hother with hother | rfl
      · exact hd.asConfigured other hother
      · rw [← hparticipant] at htls
        have htask := hd.configured task (List.mem_of_getElem? hget)
        exact ⟨hparticipant ▸ htask, htls, (connect_eq_ok_iff.mp hconnect).2.2⟩

theorem recorded_spawn (delays : List Duration) (stop : Bool) :
    Recorded config (⟨Run.spawn config delays stop, []⟩ : Dialed C K N) where
  length_eq := by
    refine (List.sum_eq_zero fun n hn => ?_).symm
    obtain ⟨log, hlog, rfl⟩ := List.mem_map.mp hn
    obtain ⟨task, htask, rfl⟩ := List.mem_map.mp hlog
    rw [(Run.exists_of_mem_spawn htask).2.1]
    rfl
  asConfigured := by simp
  configured task htask := (Run.exists_of_mem_spawn htask).1

/-- Without TLS nobody is reported with an error of TLS. -/
theorem category_of_plain {task : Task} (hplain : task.state.Plain task.log) :
    ∀ failure ∈ task.failures, failure.category ∉ tlsCategories := by
  intro failure hfailure
  obtain ⟨participant, ⟨phase, attempt, recoveryStarted⟩, log⟩ := task
  cases phase with
  | returned result =>
    cases result with
    | ok _ => cases hfailure
    | error causes =>
      obtain rfl := List.mem_singleton.mp hfailure
      exact Participant.category_of_withoutTls (hplain.withoutTls causes rfl) participant.id
  | panicked =>
    obtain rfl := List.mem_singleton.mp hfailure
    exact Participant.not_mem_tlsCategories_failed
  | connected session =>
    cases session with
    | panicked reader =>
      obtain rfl := List.mem_singleton.mp hfailure
      exact Participant.not_mem_tlsCategories_failed
    | _ => cases hfailure
  | _ => cases hfailure

/-- **The connections of a run** are those that the configuration asks for, one for each that is
counted: each was made by a participant of the configuration, over TLS exactly if it is enabled,
and then with the roots of the CA file, the certificate of the participant, and the name of the
server. Without TLS no failure of it is counted, and nobody is reported with one of its handshake,
its files or its configuration. With TLS, but without a CA or with half of a client certificate, no
participant ever does more than dial. -/
theorem channels_as_configured {started : ℤ} {shuffle : ℕ → List Duration → List Duration}
    {options : SafetyOptions} {stop : Bool} {r₀ : Run}
    (hstart : Run.start config started shuffle options stop = .ok r₀)
    (h : (machine P config C K N).exec ⟨r₀, []⟩ acts = some d) :
    (d.channels.length = d.run.world.counters .connectionSuccesses ∧
      ∀ channel ∈ d.channels, channel.AsConfigured config ∧
        (channel.stream = .tcp ↔ config.tls.enabled = false)) ∧
    (config.tls.enabled = false → d.run.world.counters .tlsFailures = 0 ∧
      ∀ task ∈ d.run.tasks, ∀ failure ∈ task.failures, failure.category ∉ tlsCategories) ∧
    (config.tls.enabled = true → config.tls.isComplete = false →
      d.channels = [] ∧ (∀ task ∈ d.run.tasks, ∀ e ∈ task.log, e.OfFailedDial) ∧
      d.run.world.counters .sentMessages = 0 ∧ d.run.world.counters .receivedMessages = 0 ∧
      d.run.world.counters .activeConnections = 0) := by
  obtain ⟨runActs, hexec⟩ := exists_exec h
  have hlinked : ∀ task ∈ d.run.tasks, Linked config task := Run.linked_invariant.run hstart hexec
  have hcounted : d.run.Counted := Run.counted_of_exec hstart hexec
  obtain ⟨haccepted, delays, rfl⟩ := Run.exists_of_mem_start hstart
  have hresolves : ∀ participant ∈ participants config, ∃ tls,
      config.tls.forParticipant participant.id = .ok tls := by
    intro participant hmem
    obtain ⟨tls, htls, -⟩ :=
      (accepted_of_validateWithOptions haccepted).resolves_tls participant hmem
    exact ⟨tls, htls⟩
  have hrecorded : d.Recorded config := Machine.exec_invariant (m := machine P config C K N)
    (fun _ _ _ hs hstep => recorded_step hs hstep) (recorded_spawn delays stop) h
  have hsum : ∀ counter, counter ≠ .activeConnections → d.run.world.counters counter =
      sumOver (Effect.added counter) d.run.logs :=
    fun counter hcounter => Run.counters_eq_sumOver hlinked hcounted hcounter
  have hlength : d.channels.length = d.run.world.counters .connectionSuccesses := by
    rw [hsum _ (by simp), hrecorded.length_eq]
  refine ⟨⟨hlength, fun channel hchannel => ?_⟩, fun hdisabled => ?_,
    fun henabled hincomplete => ?_⟩
  · have has := hrecorded.asConfigured channel hchannel
    refine ⟨has, ?_⟩
    have hmeets := has.meets
    rw [← (TlsConfig.forParticipant_keeps has.tls).1]
    revert hmeets
    cases channel.stream with
    | tcp => exact fun hmeets => iff_of_true rfl hmeets
    | tls client name => exact fun hmeets => iff_of_false (by simp) (by simp [hmeets.1])
  · have hplain : ∀ task ∈ d.run.tasks, task.state.Plain task.log :=
      forall_tasks (I := fun task => task.state.Plain task.log)
        (fun participant _ delay =>
          ⟨Participant.erased_of_none rfl, rfl, fun failure hfailure => by cases hfailure⟩)
        (fun w task a state out htask hanswered hmem hstep => Participant.plain_step hdisabled
          (hresolves task.participant hmem) hanswered htask hstep) h
    refine ⟨?_, fun task htask => category_of_plain (hplain task htask)⟩
    rw [hsum _ (by simp)]
    refine List.sum_eq_zero fun n hn => ?_
    obtain ⟨log, hlog, rfl⟩ := List.mem_map.mp hn
    obtain ⟨task, htask, rfl⟩ := List.mem_map.mp hlog
    exact (hplain task htask).total_eq
  · have hshut : ∀ task ∈ d.run.tasks, task.state.Shut task.log := by
      refine forall_tasks (I := fun task => task.state.Shut task.log)
        (fun participant _ delay => ⟨rfl, by simp⟩) ?_ h
      intro w task a state out htask hanswered _ hstep
      refine Participant.shut_step ?_ htask hstep
      rintro handshakeTime rfl
      obtain ⟨o, tls, stream, htls, hconnect⟩ := hanswered
      obtain ⟨hsame, -, hcomplete⟩ := TlsConfig.forParticipant_keeps htls
      refine connect_incomplete (hsame.trans henabled) ?_ stream hconnect
      rw [← Bool.not_eq_true, hcomplete, hincomplete]
      simp
    have hzero : ∀ counter, counter ≠ .activeConnections → (∀ e : Effect, e.OfFailedDial →
        e.added counter = 0) → d.run.world.counters counter = 0 := by
      intro counter hcounter hnone
      rw [hsum counter hcounter]
      refine List.sum_eq_zero fun n hn => ?_
      obtain ⟨log, hlog, rfl⟩ := List.mem_map.mp hn
      obtain ⟨task, htask, rfl⟩ := List.mem_map.mp hlog
      exact total_eq_zero fun e he => hnone e ((hshut task htask).dials e he)
    refine ⟨?_, fun task htask => (hshut task htask).dials, ?_, ?_, ?_⟩
    · rw [← List.length_eq_zero_iff, hlength]
      exact hzero _ (by simp) fun e he => Effect.added_of_ofFailedDial he (by decide)
    · exact hzero _ (by simp) fun e he => Effect.added_of_ofFailedDial he (by decide)
    · exact hzero _ (by simp) fun e he => Effect.added_of_ofFailedDial he (by decide)
    · rw [Run.active_eq hlinked hcounted, List.countP_eq_zero]
      intro task htask
      simp [(hshut task htask).isOpen_eq]

/-! ## A run over TLS -/

namespace Secured

/-- A participant with a certificate of its own. -/
def identified : AppConfig where
  authorization := { acknowledged := true }
  participants := [{ id := "peer" }]
  target := { server := "localhost:8089" }
  tls :=
    { enabled := true
      ca := some "ca.pem"
      clientCertTemplate := some "certs/\x7bparticipant_id\x7d.pem"
      clientKeyTemplate := some "keys/\x7bparticipant_id\x7d.key" }

/-- Files with one byte for each certificate, and a server that trusts the client. -/
def outside : Outside UInt8 (List UInt8) String where
  tcpConnect _ := some (.ok ())
  setNodelay := .ok ()
  serverName name := .ok name
  read path := if path = "ca.pem" then .ok [1, 2] else .ok [3]
  certificates := List.map .ok
  addRoot _ := .ok ()
  privateKey key := .ok key
  clientAuth _ _ := .ok ()
  handshake _ _ _ := some (.ok ())

/-- A connection over TLS. -/
def connecting : List (DialedAct UInt8 (List UInt8) String) :=
  [.run (.task 0 .start), .run (.task 0 .delayOver), .run (.task 0 .enterLoop), .dial 0 outside 7]

end Secured

/-- A participant with a certificate of its own has connected over TLS. -/
theorem channels_as_configured_identified :
    ∃ d, (machine Reference.platform Secured.identified UInt8 (List UInt8) String).exec
        ⟨Run.spawn Secured.identified [0] false, []⟩ Secured.connecting = some d ∧
      d.channels.length = 1 ∧
      ∀ channel ∈ d.channels, channel.AsConfigured Secured.identified ∧ channel.stream ≠ .tcp := by
  have hstart : Run.start Secured.identified 0 (fun _ => id) {} false =
      .ok (Run.spawn Secured.identified [0] false) := rfl
  obtain ⟨d, hd, hcount⟩ := Option.map_eq_some_iff.mp (show
    ((machine Reference.platform Secured.identified UInt8 (List UInt8) String).exec
      ⟨Run.spawn Secured.identified [0] false, []⟩ Secured.connecting).map
        (fun d => d.run.world.counters .connectionSuccesses) = some 1 by decide +kernel)
  obtain ⟨⟨hlength, hchannels⟩, -⟩ := channels_as_configured hstart hd
  refine ⟨d, hd, hlength.trans hcount, fun channel hchannel => ⟨(hchannels channel hchannel).1, ?_⟩⟩
  rw [Ne, (hchannels channel hchannel).2]
  decide

end Dialed

end TakBench
