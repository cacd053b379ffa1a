import Mathlib.Data.List.Infix
import TakBench.Numeric

/-!
# The configuration

The fields of an `AppConfig` that the runner and the safety checks read, with their defaults, and
what is computed from them before a run: the TLS files of a participant, the participants, the
start delays, the emission interval and the reconnect delay.

## Main definitions

* `AppConfig`
* `TlsConfig.forParticipant`, `isSafeParticipantId`
* `participants`, `startDelays`, `emissionInterval`, `reconnectDelay`
-/

namespace TakBench

/-! ## Fields and defaults -/

inductive Environment where
  | local
  | staging
  | temporary
  | production
  deriving DecidableEq

inductive Profile where
  | smoke
  | functional
  | load
  | stress
  | spike
  | soak
  | reconnect
  deriving DecidableEq

structure AuthorizationConfig where
  acknowledged : Bool := false

structure TargetConfig where
  server : String := "127.0.0.1:8089"
  sni : Option String := none

structure TlsConfig where
  enabled : Bool := false
  ca : Option String := none
  clientCert : Option String := none
  clientKey : Option String := none
  clientCertTemplate : Option String := none
  clientKeyTemplate : Option String := none

structure RunConfig where
  profile : Profile := .smoke
  clients : UInt32 := 1
  maxClients : UInt32 := 3
  duration : Duration := Duration.fromSecs 120
  gpsInterval : Duration := Duration.fromSecs 30
  maxRate : Option F64 := none

inductive RampStrategy where
  | immediate
  | linear
  | step
  | randomized
  deriving DecidableEq

structure RampStep where
  startAt : Duration
  clients : UInt32

structure SchedulerConfig where
  strategy : RampStrategy := .immediate
  rampUp : Duration := 0
  rampDown : Duration := 0
  steps : List RampStep := []
  seed : Option ℕ := none

structure ReconnectConfig where
  enabled : Bool := false
  minBackoff : Duration := Duration.fromMillis 250
  maxBackoff : Duration := Duration.fromSecs 30
  maxAttempts : UInt32 := 5
  jitterPercent : ℕ := 20

/-- Bounds for operations that can otherwise wait indefinitely on a peer. -/
structure TimeoutConfig where
  connect : Duration := Duration.fromSecs 10
  tlsHandshake : Duration := Duration.fromSecs 10
  read : Duration := Duration.fromSecs 30
  write : Duration := Duration.fromSecs 10

structure AbortConfig where
  connectionErrorRate : Option F64 := none
  messageErrorRate : Option F64 := none
  p95Latency : Option Duration := none
  p99Latency : Option Duration := none
  maxDroppedMessages : Option ℕ := none
  minSamples : Option ℕ := none

inductive ParticipantRole where
  | sendOnly
  | receiveOnly
  | sendReceive
  deriving DecidableEq

structure ParticipantConfig where
  id : String := ""
  role : ParticipantRole := .sendReceive
  readDelay : Option Duration := none
  pauseReadFor : Option Duration := none

structure SynchronizationConfig where
  waitForReady : List String := []
  timeout : Option Duration := none

inductive ScenarioKind where
  | position
  | marker
  | chat
  deriving DecidableEq

inductive Movement where
  | fixed
  | randomWalk
  | line
  | circle
  | route
  | geojsonRoute
  deriving DecidableEq

structure RoutingAssertion where
  sender : String := ""
  receivers : List String := []
  forbiddenReceivers : List String := []
  timeout : Option Duration := none

structure FragmentationConfig where
  chunkSizes : List ℕ := []
  eventsPerWrite : ℕ := 1

inductive InvalidEventKind where
  | malformedXml
  | unterminatedXml
  | oversizedFrame
  | invalidCoordinates
  | invalidTime
  deriving DecidableEq

structure InvalidScenarioConfig where
  enabled : Bool := false
  kind : Option InvalidEventKind := none
  maxEvents : Option UInt32 := none

structure SlowConnectConfig where
  enabled : Bool := false
  initialWriteDelay : Duration := 0

structure AbruptDisconnectConfig where
  enabled : Bool := false
  afterEvents : UInt32 := 0

structure ScenarioConfig where
  kind : ScenarioKind := .position
  movement : Movement := .fixed
  routing : List RoutingAssertion := []
  fragmentation : FragmentationConfig := {}
  invalid : InvalidScenarioConfig := {}
  slowConnect : SlowConnectConfig := {}
  abruptDisconnect : AbruptDisconnectConfig := {}

structure OutputConfig where
  lifecycleJsonl : Bool := false

structure AppConfig where
  authorization : AuthorizationConfig := {}
  environment : Environment := .local
  allowHosts : List String := []
  target : TargetConfig := {}
  tls : TlsConfig := {}
  run : RunConfig := {}
  scheduler : SchedulerConfig := {}
  reconnect : ReconnectConfig := {}
  timeouts : TimeoutConfig := {}
  abort : AbortConfig := {}
  participants : List ParticipantConfig := []
  synchronization : SynchronizationConfig := {}
  scenario : ScenarioConfig := {}
  output : OutputConfig := {}

/-! ## TLS files of a participant -/

/-- `str::replace`; `skip` characters of an occurrence are still to be passed over. -/
def replaceText (pattern text : List Char) : ℕ → List Char → List Char
  | _, [] => []
  | skip + 1, _ :: value => replaceText pattern text skip value
  | 0, c :: value =>
    if pattern <+: c :: value then text ++ replaceText pattern text (pattern.length - 1) value
    else c :: replaceText pattern text 0 value

/-- The placeholder in a template. -/
def placeholder : List Char := "\x7bparticipant_id\x7d".toList

/-- `template.contains("{participant_id}")` -/
def containsPlaceholder (template : String) : Bool := decide (placeholder <:+: template.toList)

/-- `template.replace("{participant_id}", participant_id)` -/
def fillTemplate (template participantId : String) : String :=
  String.ofList (replaceText placeholder participantId.toList 0 template.toList)

/-- ASCII letters, digits and `-_.`, but no `.` or `..`. -/
def isSafeParticipantId (value : String) : Bool :=
  value ≠ "" && value.toList.all (fun c => c.isAlphanum || c = '-' || c = '_' || c = '.') &&
    value ≠ "." && value ≠ ".."

inductive TlsTemplateError where
  | tlsTemplateError
  deriving DecidableEq

/-- `TlsConfig::for_participant`. -/
def TlsConfig.forParticipant (tls : TlsConfig) (participantId : String) :
    Except TlsTemplateError TlsConfig :=
  match tls.clientCertTemplate, tls.clientKeyTemplate with
  | none, none => .ok tls
  | some certTemplate, some keyTemplate =>
    if tls.clientCert.isSome || tls.clientKey.isSome || !containsPlaceholder certTemplate ||
        !containsPlaceholder keyTemplate || !isSafeParticipantId participantId then
      .error .tlsTemplateError
    else
      .ok { tls with
        clientCert := some (fillTemplate certTemplate participantId)
        clientKey := some (fillTemplate keyTemplate participantId)
        clientCertTemplate := none
        clientKeyTemplate := none }
  | _, _ => .error .tlsTemplateError

/-! ## Before a run -/

/-- The configured participants, or as many default ones as there are clients. -/
def participants (config : AppConfig) : List ParticipantConfig :=
  if config.participants.isEmpty then
    (List.range config.run.clients.toNat).map fun index =>
      { id := "client-" ++ toString index }
  else config.participants

inductive SchedulerError where
  | invalidSteps
  deriving DecidableEq

/-- The loop of `step_delays`. -/
def stepLoop (clients : ℕ) : List RampStep → Duration → ℕ → List Duration →
    Except SchedulerError (List Duration)
  | [], previousAt, previousClients, result =>
    .ok (result ++ List.replicate (clients - previousClients) previousAt)
  | step :: steps, previousAt, previousClients, result =>
    if step.startAt < previousAt || step.clients.toNat < previousClients ||
        clients < step.clients.toNat then .error .invalidSteps
    else
      stepLoop clients steps step.startAt step.clients.toNat
        (result ++ List.replicate (step.clients.toNat - previousClients) step.startAt)

/-- `start_delays`; `shuffle` is the seeded shuffle of the random number generator. -/
def startDelays (shuffle : ℕ → List Duration → List Duration) (clients : ℕ)
    (scheduler : SchedulerConfig) : Except SchedulerError (List Duration) :=
  let spread := (List.range clients).map fun index =>
    -- a factor below one cannot overflow
    (Duration.mulF64 scheduler.rampUp (index / (max clients 1 : ℕ))).getD 0
  match scheduler.strategy with
  | .immediate => .ok (List.replicate clients 0)
  | .linear => .ok spread
  | .randomized => .ok (shuffle (scheduler.seed.getD 0) spread)
  | .step => stepLoop clients scheduler.steps 0 0 []

/-- `emission_interval`; `none` if the conversion of the rate panics. -/
def emissionInterval (config : AppConfig) : Option Duration :=
  match config.run.maxRate with
  | none => some config.run.gpsInterval
  | some rate => (Duration.fromSecsF64 rate.recip).map (max config.run.gpsInterval)

/-- `reconnect_delay`; `factor` is the number drawn, and `none` is a panic. -/
def reconnectDelay (config : AppConfig) (attempt : ℕ) (factor : ℚ) : Option Duration :=
  let multiplier := min (2 ^ (attempt - 1)) (2 ^ 32 - 1)
  let base := min (Duration.saturatingMul config.reconnect.minBackoff multiplier)
    config.reconnect.maxBackoff
  if min config.reconnect.jitterPercent 100 = 0 then some base else Duration.mulF64 base factor

theorem gpsInterval_le_emissionInterval {config : AppConfig} {interval : Duration}
    (h : emissionInterval config = some interval) : config.run.gpsInterval ≤ interval := by
  rw [emissionInterval] at h
  split at h
  · exact (Option.some.inj h).le
  · obtain ⟨fromRate, -, rfl⟩ := Option.map_eq_some_iff.mp h
    exact le_max_left _ _

end TakBench
