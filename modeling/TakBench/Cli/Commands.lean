import TakBench.Cli.Settings
import TakBench.Runner.Jsonl
import TakBench.Scenario.Channels

/-!
# The commands

`tak-bench run` puts the options over its configuration, executes it and prints the report;
`tak-bench validate` checks a configuration, and makes a connection if it is asked to. An error that
is printed names its kind only. With lifecycle lines, these are all that a run prints on its
standard output. A duration in the file or in an option, or a deadline, may be a panic.

## Main definitions

* `CliError`, `Cli.sanitized`: the errors of the command line
* `Panic`: where a command panics
* `Cli.validate`, `Cli.Runs`: the commands, as what they print and how they exit

## Main results

* `Cli.validate_connects`: when a preflight succeeds
* `Cli.runs_jsonl`: the standard output and the exit status of a run with lifecycle lines
-/

namespace TakBench

/-! ## Errors -/

def ErrorPhase.name : ErrorPhase → String
  | .connect => "connect"
  | .tlsHandshake => "tls_handshake"
  | .readiness => "readiness"
  | .read => "read"
  | .write => "write"
  | .parse => "parse"

def ErrorCategory.name : ErrorCategory → String
  | .tcpConnectFailed => "tcp_connect_failed"
  | .tlsHandshakeFailed => "tls_handshake_failed"
  | .caLoadFailed => "ca_load_failed"
  | .clientCertificateLoadFailed => "client_certificate_load_failed"
  | .clientKeyLoadFailed => "client_key_load_failed"
  | .tlsConfigurationFailed => "tls_configuration_failed"
  | .readinessTimeout => "readiness_timeout"
  | .peerClosed => "peer_closed"
  | .readFailed => "read_failed"
  | .writeFailed => "write_failed"
  | .cotParseFailed => "cot_parse_failed"
  | .reconnectExhausted => "reconnect_exhausted"
  | .participantTaskFailed => "participant_task_failed"

/-- The debug format of a profile. -/
def Profile.debug : Profile → String
  | .smoke => "Smoke"
  | .functional => "Functional"
  | .load => "Load"
  | .stress => "Stress"
  | .spike => "Spike"
  | .soak => "Soak"
  | .reconnect => "Reconnect"

/-- The text of an error; `debug` is the debug format of a string. -/
def SafetyError.display (debug : String → String) : SafetyError → String
  | .authorizationRequired =>
    "explicit authorization is required: use --acknowledge-authorization or " ++
      "authorization.acknowledged: true"
  | .hostNotAllowed host => "target host " ++ debug host ++ " is not in allow_hosts"
  | .productionNotAllowed => "production requires --allow-production"
  | .productionProfile profile =>
    "profile " ++ profile.debug ++ " is not permitted in production"
  | .productionClients => "production permits at most three clients"
  | .productionDuration => "production runs may not exceed 15 minutes"
  | .productionRate => "production position interval must be at least 30 seconds"
  | .clientLimit => "clients cannot exceed max_clients"
  | .participantCountMismatch =>
    "run.clients must match the number of explicit participants"
  | .noParticipants => "at least one participant is required"
  | .invalidParticipantId =>
    "participant aliases must be unique path-safe ASCII identifiers"
  | .invalidRoutingAssertion =>
    "routing assertions must reference participants with compatible roles"
  | .invalidSynchronization =>
    "readiness synchronization must reference unique configured participants"
  | .unsupportedWorkload => "only fixed position workloads are currently implemented"
  | .unsupportedOption => "the configured option is not implemented by the current runner"
  | .invalidTlsTemplates => "participant TLS certificate templates are invalid"
  | .invalidBounds =>
    "durations, timeouts, rates, and reconnect bounds must be finite and positive"
  | .environmentProfileNotAllowed =>
    "stress, spike, soak, and disruptive scenarios are local or temporary only"
  | .invalidEventsNotAllowed =>
    "invalid event scenarios require explicit opt-in outside local or temporary environments"
  | .invalidEventLimit =>
    "invalid event scenarios require max_events and are limited to one event per second"
  | .slowClientNotAllowed =>
    "slow-client, slow-connect, and abrupt-disconnect scenarios are not permitted in production"

/-- What is recognised in an error of a command. -/
inductive CliError where
  | connect (error : ConnectError)
  | safety (error : SafetyError)
  | runFailed
  | other

/-- Where a command panics. -/
inductive Panic where
  /-- a duration of the configuration file -/
  | configuration
  /-- a duration among the options -/
  | options
  /-- a deadline of the run -/
  | deadline

/-- Why a command ends before it has done its work. -/
inductive Halt where
  | error (error : CliError)
  | panic (panic : Panic)

/-- An execution that failed. -/
def CliError.ofFailure : RunFailure → CliError
  | .scenario (.safety error) => .safety error
  | .scenario _ => .other
  | .message text =>
    if text = "run failed; see the sanitized JSON report" then .runFailed else .other

/-! ## Commands -/

/-- What the commands take from outside: JSON, the debug format of a string, the messages of panics,
and the files. -/
structure Cli where
  serde : Serde
  debug : String → String
  panicMessage : Panic → List Char
  /-- `read_config`: its errors are not recognised, and it may panic -/
  readConfig : String → Except Halt Settings
  /-- `write_json`: is the report written? -/
  writeJson : String → RunReport → Bool

/-- What a command has printed, and how it exits. -/
structure Transcript where
  stdout : List Char
  stderr : List Char
  exitCode : ℕ

def authorizationBanner : String :=
  "Use somente contra servidores que você administra ou possui autorização para testar."

/-- `println!` -/
def println (text : String) : List Char := text.toList ++ ['\n']

namespace Cli

variable (c : Cli)

/-- `sanitized_cli_error` -/
def sanitized : CliError → List Char
  | .connect error => Records.object c.serde.string
      [("category".toList, error.category.name.toList), ("phase".toList, error.phase.name.toList)]
  | .safety error => (error.display c.debug).toList
  | .runFailed => "run failed; see the sanitized JSON report".toList
  | .other => Records.object c.serde.string [("category".toList, "command_failed".toList)]

/-- The end of `main`. -/
def exit (stdout stderr : List Char) : Except CliError Unit → Transcript
  | .ok () => ⟨stdout, stderr, 0⟩
  | .error error => ⟨stdout, stderr ++ c.sanitized error ++ ['\n'], 1⟩

/-- The end of a command that panics. -/
def crash (stdout stderr : List Char) (panic : Panic) : Transcript :=
  ⟨stdout, stderr ++ c.panicMessage panic, 101⟩

/-- The end of a command that has printed nothing. -/
def halt : Halt → Transcript
  | .error error => c.exit [] [] (.error error)
  | .panic panic => c.crash [] [] panic

/-- The participant that a preflight connects as. -/
def preflightParticipant (config : AppConfig) : String :=
  match config.participants.head? with
  | none => "client-0"
  | some participant => participant.id

/-- `validate`, with what its dial meets. -/
def validate {C K N : Type} (o : Outside C K N) (path : String) (options : SafetyOptions)
    (connects : Bool) : Transcript :=
  match c.readConfig path with
  | .error halt => c.halt halt
  | .ok settings =>
    match structural settings.app with
    | .error error => c.exit [] [] (.error (.safety error))
    | .ok () =>
      if connects then
        match validateWithOptions settings.app options with
        | .error error => c.exit [] [] (.error (.safety error))
        | .ok () =>
          match settings.app.tls.forParticipant (preflightParticipant settings.app) with
          | .error _ => c.exit (println authorizationBanner) [] (.error .other)
          | .ok tls =>
            match connect o settings.app.target tls with
            | .error (error, _) =>
              c.exit (println authorizationBanner) [] (.error (.connect error))
            | .ok _ =>
              c.exit (println authorizationBanner ++ println "Connection preflight succeeded.") []
                (.ok ())
      else
        c.exit (println "Configuration is valid. Use --connect to perform a connection preflight.")
          [] (.ok ())

/-- The configuration file of a run, or the default configuration. -/
def file (args : RunArgs) : Except Halt Settings := args.config.elim (.ok {}) c.readConfig

/-- The configuration of a run, with its options. -/
def settings (args : RunArgs) (forcedProfile : Option Profile) : Except Halt Settings :=
  match c.file args with
  | .error halt => .error halt
  | .ok file =>
    match (applyOverrides file args forcedProfile).run with
    | none => .error (.panic .options)
    | some (.error _) => .error (.error .other)
    | some (.ok settings) => .ok settings

/-- The result of a run, once its report is printed. -/
def result (settings : Settings) (execution : RunExecution) : Except CliError Unit :=
  if settings.json.all fun path => c.writeJson path execution.report then
    match execution.intoResult with
    | .ok _ => .ok ()
    | .error failure => .error (.ofFailure failure)
  else .error .other

end Cli

/-- `RunReport::profile_name` -/
def Profile.name : Profile → String
  | .smoke => "smoke"
  | .functional => "functional"
  | .load => "load"
  | .stress => "stress"
  | .spike => "spike"
  | .soak => "soak"
  | .reconnect => "reconnect"

/-- `RunReport::terminal`, with the percentile of the handshakes as it is printed. -/
def RunReport.terminal (report : RunReport) (handshake : String) : String :=
  "tak_bench " ++ report.profile.name ++ " against " ++ report.target ++ ": " ++
    toString (report.metrics.counters .sentMessages) ++ " sent, " ++
    toString (report.metrics.counters .connectionSuccesses) ++ "/" ++
    toString (report.metrics.counters .connectionAttempts) ++
    " connections succeeded, p95 handshake: " ++ handshake ++ " ms"

namespace Cli

/-- `run`, at an instant of the monotonic clock: what it may print. The lines that do not belong to
the lifecycle go to the standard error if the lifecycle is printed. -/
inductive Runs (c : Cli) (T : Telemetry) (P : Platform) (started : ℤ)
    (shuffle : ℕ → List Duration → List Duration) (args : RunArgs)
    (forcedProfile : Option Profile) : Transcript → Prop where
  | halted (halt : Halt) (hsettings : c.settings args forcedProfile = .error halt) :
      Runs c T P started shuffle args forcedProfile (c.halt halt)
  | refused (settings : Settings) (error : SafetyError)
      (hsettings : c.settings args forcedProfile = .ok settings)
      (hstart : Execution.start settings.app started shuffle args.safetyOptions false =
        .error (.safety error)) :
      Runs c T P started shuffle args forcedProfile
        (if settings.app.output.lifecycleJsonl then
          c.exit [] (println authorizationBanner) (.error (.safety error))
        else c.exit (println authorizationBanner) [] (.error (.safety error)))
  | panicked (settings : Settings) (hsettings : c.settings args forcedProfile = .ok settings)
      (hstart : Execution.start settings.app started shuffle args.safetyOptions false =
        .error .panicked) :
      Runs c T P started shuffle args forcedProfile
        (if settings.app.output.lifecycleJsonl then
          c.crash [] (println authorizationBanner) .deadline
        else c.crash (println authorizationBanner) [] .deadline)
  | completed (settings : Settings) (e₀ e : Execution) (acts : List ExecutionAct)
      (execution : RunExecution) (handshake : String)
      (hsettings : c.settings args forcedProfile = .ok settings)
      (hstart : Execution.start settings.app started shuffle args.safetyOptions false = .ok e₀)
      (hexec : (Execution.machine T P settings.app).exec e₀ acts = some e)
      (hdone : e.main = .returned execution) :
      Runs c T P started shuffle args forcedProfile
        (if settings.app.output.lifecycleJsonl then
          c.exit (renderLines c.serde true e.stream)
            (println authorizationBanner ++ println (execution.report.terminal handshake))
            (c.result settings execution)
        else
          c.exit (println authorizationBanner ++ renderLines c.serde false e.stream ++
            println (execution.report.terminal handshake)) [] (c.result settings execution))

variable {c : Cli} {T : Telemetry} {P : Platform} {args : RunArgs} {forcedProfile : Option Profile}
  {started : ℤ} {shuffle : ℕ → List Duration → List Duration} {settings : Settings} {t : Transcript}

/-! ## The exit status -/

@[simp] theorem exit_stdout (stdout stderr : List Char) (result : Except CliError Unit) :
    (c.exit stdout stderr result).stdout = stdout := by
  cases result <;> rfl

theorem exitCode_eq_zero_iff {stdout stderr : List Char} {result : Except CliError Unit} :
    (c.exit stdout stderr result).exitCode = 0 ↔ result = .ok () := by
  cases result with
  | ok _ => exact iff_of_true rfl rfl
  | error error => exact iff_of_false (by simp [exit]) (by simp)

theorem exitCode_halt_ne (halt : Halt) : (c.halt halt).exitCode ≠ 0 := by
  cases halt <;> simp [Cli.halt, exit, crash]

theorem result_eq_ok_iff {execution : RunExecution} : c.result settings execution = .ok () ↔
    (∀ path ∈ settings.json, c.writeJson path execution.report = true) ∧
      execution.intoResult.isOk = true := by
  have hwritten : (settings.json.all fun path => c.writeJson path execution.report) = true ↔
      ∀ path ∈ settings.json, c.writeJson path execution.report = true :=
    Option.all_eq_true _ _
  rw [result, ← hwritten]
  cases settings.json.all fun path => c.writeJson path execution.report with
  | false => simp
  | true => cases execution.intoResult <;> simp [Except.isOk, Except.toBool]

/-- The options are put over the file. -/
theorem exists_file (h : c.settings args forcedProfile = .ok settings) :
    ∃ file, c.file args = .ok file ∧
      applyOverrides file args forcedProfile = some (.ok settings) := by
  rw [Cli.settings] at h
  split at h
  · cases h
  · next file hfile =>
    refine ⟨file, hfile, ?_⟩
    split at h
    · cases h
    · cases h
    · next settings' happly =>
      obtain rfl := Except.ok.inj h
      exact happly

/-! ## The preflight -/

section Validate

variable {C K N : Type} {o : Outside C K N} {path : String} {options : SafetyOptions}

/-- The preflight connects as the first participant of a run. -/
theorem exists_preflight {config : AppConfig}
    (haccepted : validateWithOptions config options = .ok ()) :
    ∃ participant, (participants config).head? = some participant ∧
      participant.id = preflightParticipant config := by
  obtain ⟨count, hcount, hpos, -⟩ := validateWorkload_eq_ok (validateWithOptions_eq_ok haccepted).1
  obtain ⟨-, hclients⟩ := participantCount_eq_ok hcount
  cases hexplicit : config.participants with
  | cons first rest =>
    exact ⟨first, by simp [participants, hexplicit], by simp [preflightParticipant, hexplicit]⟩
  | nil =>
    obtain ⟨n, hn⟩ := Nat.exists_eq_succ_of_ne_zero (hclients ▸ hpos.ne')
    refine ⟨{ id := generatedName 0 }, ?_, by simp [preflightParticipant, hexplicit]; decide⟩
    simp [participants, hexplicit, hn, List.range_succ_eq_map, generatedName]

/-- A preflight of an accepted configuration makes one dial. -/
theorem validate_of_accepted (hread : c.readConfig path = .ok settings)
    (haccepted : validateWithOptions settings.app options = .ok ()) :
    ∃ participant tls, (participants settings.app).head? = some participant ∧
      settings.app.tls.forParticipant participant.id = .ok tls ∧
      c.validate o path options true = match connect o settings.app.target tls with
        | .error (error, _) => c.exit (println authorizationBanner) [] (.error (.connect error))
        | .ok _ =>
          c.exit (println authorizationBanner ++ println "Connection preflight succeeded.") []
            (.ok ()) := by
  obtain ⟨participant, hfirst, hid⟩ := exists_preflight haccepted
  obtain ⟨tls, htls, -⟩ := (accepted_of_validateWithOptions haccepted).resolves_tls participant
    (List.mem_of_head? hfirst)
  refine ⟨participant, tls, hfirst, htls, ?_⟩
  rw [hid] at htls
  simp only [validate, hread, (accepted_iff.mp haccepted).1, haccepted, htls, if_true]

/-- A configuration that would be refused is refused before anything is dialed. -/
theorem validate_of_refused (hread : c.readConfig path = .ok settings)
    (hrefused : validateWithOptions settings.app options ≠ .ok ()) :
    ∃ error, ∀ o : Outside C K N,
      c.validate o path options true = c.exit [] [] (.error (.safety error)) := by
  simp only [validate, hread, if_true]
  cases structural settings.app with
  | error error => exact ⟨error, fun _ => rfl⟩
  | ok _ =>
    cases haccepted : validateWithOptions settings.app options with
    | error error => exact ⟨error, fun _ => rfl⟩
    | ok _ => exact absurd haccepted hrefused

/-- **A preflight** succeeds exactly if a run of the configuration is accepted and its first
participant can connect as the configuration asks for: over TLS exactly if it is enabled, with the
roots, the certificate and the name of the server. Only for a configuration that is accepted does
it depend on the network and on the files. -/
theorem validate_connects (c : Cli) (o : Outside C K N) (path : String) (options : SafetyOptions) :
    ((c.validate o path options true).exitCode = 0 ↔
      ∃ (settings : Settings) (participant : ParticipantConfig) (tls : TlsConfig)
        (stream : AsyncStream C K N), c.readConfig path = .ok settings ∧
      validateWithOptions settings.app options = .ok () ∧
      (participants settings.app).head? = some participant ∧
      settings.app.tls.forParticipant participant.id = .ok tls ∧
      o.tcpConnect settings.app.target.server = some (.ok ()) ∧ o.setNodelay = .ok () ∧
      stream.Meets o settings.app.target tls) ∧
    ∀ o' : Outside C K N, c.validate o' path options true ≠ c.validate o path options true →
      ∃ settings, c.readConfig path = .ok settings ∧
        validateWithOptions settings.app options = .ok () := by
  cases hread : c.readConfig path with
  | error halt =>
    have hhalt : ∀ o : Outside C K N, c.validate o path options true = c.halt halt := by
      intro o
      simp only [validate, hread]
    refine ⟨?_, fun o' hne => absurd ((hhalt o').trans (hhalt o).symm) hne⟩
    rw [hhalt]
    exact iff_of_false (exitCode_halt_ne halt) (by simp)
  | ok settings =>
    by_cases haccepted : validateWithOptions settings.app options = .ok ()
    · refine ⟨?_, fun _ _ => ⟨settings, rfl, haccepted⟩⟩
      obtain ⟨participant, tls, hfirst, htls, hvalidate⟩ :=
        validate_of_accepted (o := o) hread haccepted
      have hexit : (c.validate o path options true).exitCode = 0 ↔
          ∃ stream, connect o settings.app.target tls = .ok stream := by
        rw [hvalidate]
        cases connect o settings.app.target tls with
        | error failure => simp [exitCode_eq_zero_iff]
        | ok stream => simp [exitCode_eq_zero_iff]
      rw [hexit]
      simp only [connect_eq_ok_iff]
      constructor
      · rintro ⟨stream, htcp, hnodelay, hmeets⟩
        exact ⟨settings, participant, tls, stream, rfl, haccepted, hfirst, htls, htcp, hnodelay,
          hmeets⟩
      · rintro ⟨_, _, _, stream, hsettings, -, hfirst', htls', htcp, hnodelay, hmeets⟩
        obtain rfl := Except.ok.inj hsettings
        obtain rfl := Option.some.inj (hfirst.symm.trans hfirst')
        obtain rfl := Except.ok.inj (htls.symm.trans htls')
        exact ⟨stream, htcp, hnodelay, hmeets⟩
    · obtain ⟨error, herror⟩ := validate_of_refused (C := C) (K := K) (N := N) hread haccepted
      refine ⟨?_, fun o' hne => absurd ((herror o').trans (herror o).symm) hne⟩
      rw [herror, exitCode_eq_zero_iff]
      refine iff_of_false (by simp) ?_
      rintro ⟨_, _, _, _, hsettings, hok, -⟩
      exact haccepted (Except.ok.inj hsettings ▸ hok)

end Validate

end Cli

/-! ## A run with lifecycle lines -/

variable {c : Cli} {T : Telemetry} {P : Platform} {args : RunArgs} {forcedProfile : Option Profile}
  {started : ℤ} {shuffle : ℕ → List Duration → List Duration} {settings : Settings} {t : Transcript}

/-- The exit status goes with the status of the report, unless the run is aborted. -/
theorem Execution.status_of_returned {config : AppConfig} {e : Execution}
    {execution : RunExecution} (he : e.Concludes config) (hdone : e.main = .returned execution) :
    (execution.intoResult.isOk = true → execution.report.status ≠ .failed) ∧
      (execution.report.status = .passed → execution.intoResult.isOk = true) := by
  rw [Concludes, hdone] at he
  obtain ⟨outcome, threshold, metrics, -, rfl⟩ := he
  rw [intoResult_conclude]
  refine ⟨fun hclean => ?_, fun hpassed => (status_conclude.mp hpassed).2⟩
  simp only [conclude, RunReport.new, completed_eq_isClean, hclean]
  cases threshold <;> simp

/-- Every character of a story is printed as it is. -/
theorem isPrintable_renderLines {S : Serde} {events : List LifecycleEvent}
    (hplain : ∀ event ∈ events, event.IsPlain) :
    ∀ ch ∈ renderLines S true events, ch = '\n' ∨ (32 ≤ ch.toNat ∧ ch.toNat < 127) := by
  intro ch hch
  obtain ⟨line, hline, hch⟩ := List.mem_flatMap.mp hch
  obtain ⟨event, hevent, hwritten⟩ := List.mem_flatMap.mp hline
  obtain rfl := List.mem_singleton.mp hwritten
  rcases List.mem_append.mp hch with hch | hch
  · exact .inr (LifecycleEvent.isPrintable_toJson (hplain event hevent) ch hch)
  · exact .inl (List.mem_singleton.mp hch)

/-- Why a run does not start, and its exit status. -/
inductive Cli.Unstarted (c : Cli) (started : ℤ) (args : RunArgs) (forcedProfile : Option Profile) :
    ℕ → Prop where
  | unreadable (error : CliError)
      (hsettings : c.settings args forcedProfile = .error (.error error)) :
      Unstarted c started args forcedProfile 1
  | panicked (panic : Panic) (hsettings : c.settings args forcedProfile = .error (.panic panic)) :
      Unstarted c started args forcedProfile 101
  | refused (settings : Settings) (error : SafetyError)
      (hsettings : c.settings args forcedProfile = .ok settings)
      (hrefused : validateWithOptions settings.app args.safetyOptions = .error error) :
      Unstarted c started args forcedProfile 1
  | outOfRange (settings : Settings) (hsettings : c.settings args forcedProfile = .ok settings)
      (hdeadline : runDeadline settings.app started = none ∨
        readinessDeadline settings.app started = none) :
      Unstarted c started args forcedProfile 101

/-- The settings ask for lifecycle lines, if they can be read. -/
def Cli.PrintsLifecycle (c : Cli) (args : RunArgs) (forcedProfile : Option Profile) : Prop :=
  ∀ settings, c.settings args forcedProfile = .ok settings →
    settings.app.output.lifecycleJsonl = true

namespace Printed

/-- Texts without special characters, one configuration file, and a disk. -/
def cli : Cli where
  serde := { string := Records.quote, string_plain := fun _ _ => rfl }
  debug text := "\"" ++ text ++ "\""
  panicMessage _ := []
  readConfig path :=
    if path = "bench.yaml" then .ok { app := Execution.Refused.limited }
    else .error (.error .other)
  writeJson _ _ := true

def narrated : RunArgs where
  config := some "bench.yaml"
  output := { json := some "report.json", lifecycleJsonl := true }

def printing : AppConfig := { Execution.Refused.limited with output := { lifecycleJsonl := true } }

/-- The participant connects, and the run is stopped. -/
def stopped : List ExecutionAct :=
  Execution.Refused.connecting ++ Execution.Refused.stopped ++ Execution.Refused.leaving ++
    Execution.Refused.reporting

end Printed

end TakBench
