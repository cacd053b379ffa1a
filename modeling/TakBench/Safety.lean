import TakBench.Config
import TakBench.Host

/-!
# The safety checks

A run starts only if `validateWithOptions` accepts its configuration.

## Main definitions

* `SafetyError`
* `validateWorkload`, `validateWithOptions`

## Main results

* `validateWithOptions_eq_ok`, `validateWorkload_eq_ok`: what an accepted configuration satisfies,
  check by check
* `production_limits`: what the checks guarantee of an accepted production configuration
-/

namespace TakBench

inductive SafetyError where
  | authorizationRequired
  | hostNotAllowed (host : String)
  | productionNotAllowed
  | productionProfile (profile : Profile)
  | productionClients
  | productionDuration
  | productionRate
  | clientLimit
  | participantCountMismatch
  | noParticipants
  | invalidParticipantId
  | invalidRoutingAssertion
  | invalidSynchronization
  | unsupportedWorkload
  | unsupportedOption
  | invalidTlsTemplates
  | invalidBounds
  | environmentProfileNotAllowed
  | invalidEventsNotAllowed
  | invalidEventLimit
  | slowClientNotAllowed
  deriving DecidableEq

structure SafetyOptions where
  allowProduction : Bool := false
  allowInvalidEvents : Bool := false

/-- A check that fails with `e` if the condition holds. -/
def rejectIf (condition : Bool) (e : SafetyError) : Except SafetyError Unit :=
  if condition then .error e else .ok ()

variable (config : AppConfig)

/-- The number of participants that the checks work with. -/
def participantCount : Except SafetyError ℕ :=
  if config.participants.isEmpty then .ok config.run.clients.toNat
  else if 2 ^ 32 ≤ config.participants.length then .error .clientLimit
  else if config.participants.length ≠ config.run.clients.toNat then
    .error .participantCountMismatch
  else .ok config.participants.length

/-- Is `id` a participant that a routing assertion may name, given the role it must not have? -/
def isRoutable (excluded : ParticipantRole) (id : String) : Bool :=
  match config.participants.find? (·.id = id) with
  | none => false
  | some participant => participant.role ≠ excluded

/-- `validate_participants_and_routing`. -/
def validateParticipantsAndRouting : Except SafetyError Unit :=
  if config.participants.isEmpty then
    rejectIf (!config.scenario.routing.isEmpty) .invalidRoutingAssertion
  else do
    rejectIf (config.participants.any (fun participant => !isSafeParticipantId participant.id) ||
      !decide (config.participants.map (·.id)).Nodup) .invalidParticipantId
    rejectIf (config.scenario.routing.any fun assertion =>
      !isRoutable config .receiveOnly assertion.sender ||
      (assertion.receivers.isEmpty && assertion.forbiddenReceivers.isEmpty) ||
      (assertion.receivers ++ assertion.forbiddenReceivers).any
        fun id => !isRoutable config .sendOnly id) .invalidRoutingAssertion

/-- `validate_synchronization`. -/
def validateSynchronization : Except SafetyError Unit :=
  if config.synchronization.waitForReady.isEmpty then
    rejectIf config.synchronization.timeout.isSome .invalidSynchronization
  else
    rejectIf (config.participants.isEmpty || config.synchronization.timeout.isNone ||
      !decide config.synchronization.waitForReady.Nodup ||
      config.synchronization.waitForReady.any fun id =>
        !config.participants.any (·.id = id)) .invalidSynchronization

/-- `validate_tls_templates`: the participants are the explicit ones or `client-0`, … -/
def validateTlsTemplates : Except SafetyError Unit :=
  rejectIf ((participants config).any fun participant =>
    match config.tls.forParticipant participant.id with
    | .ok _ => false
    | .error _ => true) .invalidTlsTemplates

/-- A rate whose emission interval is no positive duration. -/
def isInvalidRate (rate : F64) : Bool :=
  !rate.isFinite || rate.le (.finite 0) || !rate.recip.isFinite ||
    Duration.maxAsSecsF64.lt rate.recip

/-- The bounds that must be positive and in range. -/
def hasInvalidBounds : Bool :=
  config.run.duration = 0 || config.run.gpsInterval = 0 || config.timeouts.connect = 0 ||
  config.timeouts.tlsHandshake = 0 || config.timeouts.read = 0 || config.timeouts.write = 0 ||
  config.synchronization.timeout.any (· = 0) || config.run.maxRate.any isInvalidRate ||
  (config.reconnect.enabled &&
    (config.reconnect.minBackoff = 0 || config.reconnect.maxBackoff = 0 ||
      config.reconnect.maxBackoff < config.reconnect.minBackoff))

/-- Slow, delayed or disconnecting clients. -/
def isDisruptive : Bool :=
  config.scenario.slowConnect.enabled || config.scenario.abruptDisconnect.enabled ||
  config.participants.any fun participant =>
    participant.readDelay.isSome || participant.pauseReadFor.isSome

/-- The limits of a production run. -/
def validateProduction (count : ℕ) : Except SafetyError Unit :=
  if config.environment = .production then do
    rejectIf (config.run.profile ≠ .smoke) (.productionProfile config.run.profile)
    rejectIf (3 < count || 3 < config.run.maxClients.toNat) .productionClients
    rejectIf (Duration.fromSecs (15 * 60) < config.run.duration) .productionDuration
    rejectIf (config.run.gpsInterval < Duration.fromSecs 30 ||
      config.run.maxRate.any (F64.lt F64.tenth)) .productionRate
    rejectIf (isDisruptive config) .slowClientNotAllowed
  else .ok ()

/-- `validate_workload`. -/
def validateWorkload : Except SafetyError Unit := do
  let count ← participantCount config
  rejectIf (count = 0) .noParticipants
  rejectIf (config.run.maxClients.toNat < count) .clientLimit
  validateParticipantsAndRouting config
  validateSynchronization config
  rejectIf (hasInvalidBounds config) .invalidBounds
  rejectIf (config.scenario.kind ≠ .position || config.scenario.movement ≠ .fixed)
    .unsupportedWorkload
  rejectIf (config.scheduler.rampDown ≠ 0) .unsupportedOption
  validateTlsTemplates config
  let localOrTemporary := config.environment = .local || config.environment = .temporary
  rejectIf ((!localOrTemporary && (config.run.profile = .stress || config.run.profile = .spike ||
      config.run.profile = .soak)) ||
    (config.environment = .staging && isDisruptive config)) .environmentProfileNotAllowed
  validateProduction config count
  rejectIf (config.scenario.invalid.enabled &&
    (config.scenario.invalid.maxEvents.all (· = 0) ||
      config.run.maxRate.any (F64.lt (.finite 1)) ||
      config.run.gpsInterval < Duration.fromSecs 1)) .invalidEventLimit

/-- `validate_with_options`. -/
def validateWithOptions (options : SafetyOptions) : Except SafetyError Unit := do
  rejectIf (!config.authorization.acknowledged) .authorizationRequired
  let host := hostFromServer config.target.server
  let localLoopback := config.environment = .local && isLoopback host
  rejectIf (!localLoopback && !config.allowHosts.any (· = host)) (.hostNotAllowed host)
  validateWorkload config
  rejectIf (config.environment = .production && !options.allowProduction) .productionNotAllowed
  let environmentPermits := config.environment = .local || config.environment = .temporary ||
    (config.environment = .staging && options.allowInvalidEvents)
  rejectIf (config.scenario.invalid.enabled && !environmentPermits) .invalidEventsNotAllowed

/-! ## What acceptance means -/

section Accepted

variable {config} {options : SafetyOptions}

theorem bind_eq_ok {ε α β : Type} {x : Except ε α} {f : α → Except ε β} {b : β} :
    (x >>= f) = .ok b ↔ ∃ a, x = .ok a ∧ f a = .ok b := by
  cases x with
  | error e => simp [bind, Except.bind]
  | ok a => simp [bind, Except.bind]

@[simp] theorem rejectIf_eq_ok {condition : Bool} {e : SafetyError} {u : Unit} :
    rejectIf condition e = .ok u ↔ condition = false := by
  cases condition <;> simp [rejectIf]

/-- An accepted configuration passed the workload checks, and its invalid events are permitted. -/
theorem validateWithOptions_eq_ok (h : validateWithOptions config options = .ok ()) :
    validateWorkload config = .ok () ∧
      (config.scenario.invalid.enabled = true → config.environment ≠ .production) := by
  simp only [validateWithOptions, bind_eq_ok, rejectIf_eq_ok] at h
  obtain ⟨_, -, _, -, _, hworkload, _, -, hinvalid⟩ := h
  refine ⟨hworkload, fun henabled hproduction => ?_⟩
  rw [henabled, hproduction] at hinvalid
  simp at hinvalid

theorem participantCount_eq_ok {count : ℕ} (h : participantCount config = .ok count) :
    count = (participants config).length ∧ count = config.run.clients.toNat := by
  rw [participantCount] at h
  split at h
  · next hempty =>
    obtain rfl := Except.ok.inj h
    simp [participants, hempty]
  · next hempty =>
    split at h
    · cases h
    · split at h
      · cases h
      · next hcount =>
        obtain rfl := Except.ok.inj h
        exact ⟨by simp [participants, hempty], not_not.mp hcount⟩

/-- The workload checks, in the order in which they are made. -/
theorem validateWorkload_eq_ok (h : validateWorkload config = .ok ()) :
    ∃ count, participantCount config = .ok count ∧ 0 < count ∧
      count ≤ config.run.maxClients.toNat ∧ validateParticipantsAndRouting config = .ok () ∧
      validateSynchronization config = .ok () ∧ hasInvalidBounds config = false ∧
      validateTlsTemplates config = .ok () ∧ validateProduction config count = .ok () ∧
      (config.scenario.invalid.enabled = true →
        config.scenario.invalid.maxEvents.all (· = 0) = false) := by
  simp only [validateWorkload, bind_eq_ok, rejectIf_eq_ok] at h
  obtain ⟨count, hcount, _, hzero, _, hmax, ⟨⟩, hrouting, ⟨⟩, hsynchronization, _, hbounds,
    _, -, _, -, ⟨⟩, htemplates, _, -, ⟨⟩, hproduction, hinvalid⟩ := h
  refine ⟨count, hcount, Nat.pos_of_ne_zero (of_decide_eq_false hzero),
    Nat.le_of_not_lt (of_decide_eq_false hmax), hrouting, hsynchronization, hbounds, htemplates,
    hproduction, ?_⟩
  intro henabled
  rw [henabled, Bool.true_and, Bool.or_eq_false_iff, Bool.or_eq_false_iff] at hinvalid
  exact hinvalid.1.1

/-- **Production limits**: an accepted production configuration has at most three participants,
sends at most every thirty seconds, and sends no invalid event. -/
theorem production_limits (h : validateWithOptions config options = .ok ())
    (hproduction : config.environment = .production) :
    (participants config).length ≤ 3 ∧ Duration.fromSecs 30 ≤ config.run.gpsInterval ∧
      config.scenario.invalid.enabled = false := by
  obtain ⟨hworkload, hinvalid⟩ := validateWithOptions_eq_ok h
  obtain ⟨count, hcount, -, -, -, -, -, -, hlimits, -⟩ := validateWorkload_eq_ok hworkload
  rw [validateProduction, if_pos hproduction] at hlimits
  simp only [bind_eq_ok, rejectIf_eq_ok, Bool.or_eq_false_iff,
    decide_eq_false_iff_not, Nat.not_lt] at hlimits
  obtain ⟨_, -, _, ⟨hclients, -⟩, _, -, _, ⟨hinterval, -⟩, -⟩ := hlimits
  refine ⟨(participantCount_eq_ok hcount).1 ▸ hclients, hinterval, ?_⟩
  by_contra henabled
  exact hinvalid (by simpa using henabled) hproduction

/-- Invalid events are accepted only with a positive bound on their number. -/
theorem exists_maxEvents (h : validateWithOptions config options = .ok ())
    (henabled : config.scenario.invalid.enabled = true) :
    ∃ maxEvents, config.scenario.invalid.maxEvents = some maxEvents ∧ maxEvents ≠ 0 := by
  obtain ⟨hworkload, -⟩ := validateWithOptions_eq_ok h
  obtain ⟨_, -, -, -, -, -, -, -, -, hbound⟩ := validateWorkload_eq_ok hworkload
  cases hmax : config.scenario.invalid.maxEvents with
  | none =>
    have hnone := hbound henabled
    rw [hmax] at hnone
    cases hnone
  | some maxEvents =>
    refine ⟨maxEvents, rfl, ?_⟩
    have hpos := hbound henabled
    rwa [hmax, Option.all_some, decide_eq_false_iff_not] at hpos

end Accepted

end TakBench
