import TakBench.Durations
import TakBench.Host
import TakBench.Safety

/-!
# The options of the command line

A run reads its configuration from a file, or takes the default one, and puts the options of the
command line over it. Then the safety checks decide. The options cannot name a host that the file
does not allow, and what they do not mention stays as it is in the file. `validate` makes the checks
on a configuration in which every consent is given; so it says whether consent is all that is
missing.

## Main definitions

* `Settings`, `RunArgs`, `applyOverrides`
* `structural`: a configuration with every consent
* `Consented`: the consent that a configuration needs

## Main results

* `applyOverrides_eq`: what the options change
* `accepted_overrides`: what an accepted command line cannot do
* `structural_decides`: the checks of `validate` and those of a run
-/

namespace TakBench

/-! ## Options -/

/-- What a configuration file holds: the configuration of a run and the path of its report. -/
structure Settings where
  app : AppConfig := {}
  json : Option String := none

structure OutputArgs where
  json : Option String := none
  lifecycleJsonl : Bool := false

structure RunArgs where
  config : Option String := none
  server : Option String := none
  environment : Option String := none
  profile : Option String := none
  clients : Option UInt32 := none
  maxClients : Option UInt32 := none
  duration : Option String := none
  gpsInterval : Option String := none
  maxRate : Option F64 := none
  output : OutputArgs := {}
  acknowledgeAuthorization : Bool := false
  allowProduction : Bool := false
  allowInvalidEvents : Bool := false

/-- `Environment::from_str` -/
def Environment.fromStr (value : String) : Except String Environment :=
  if value = "local" then .ok .local
  else if value = "staging" then .ok .staging
  else if value = "temporary" then .ok .temporary
  else if value = "production" then .ok .production
  else .error "environment must be local, staging, temporary, or production"

/-- `Profile::from_str` -/
def Profile.fromStr (value : String) : Except String Profile :=
  if value = "smoke" then .ok .smoke
  else if value = "functional" then .ok .functional
  else if value = "load" then .ok .load
  else if value = "stress" then .ok .stress
  else if value = "spike" then .ok .spike
  else if value = "soak" then .ok .soak
  else if value = "reconnect" then .ok .reconnect
  else .error "unknown profile"

/-- An option that is read, or the value that it would replace. -/
def overridden {α : Type} (option : Option String) (read : String → Option (Except String α))
    (value : α) : ExceptT String Option α :=
  match option with
  | none => pure value
  | some text => ExceptT.mk (read text)

/-- A command may force a profile; else it is an option. -/
def chosenProfile (forcedProfile : Option Profile) (option : Option String) (value : Profile) :
    ExceptT String Option Profile :=
  match forcedProfile with
  | some profile => pure profile
  | none => overridden option (some ∘ Profile.fromStr) value

/-- `apply_overrides`; the outer `none` is a panic of `parse_duration`. -/
def applyOverrides (settings : Settings) (args : RunArgs) (forcedProfile : Option Profile) :
    ExceptT String Option Settings := do
  let app := settings.app
  let environment ← overridden args.environment (some ∘ Environment.fromStr) app.environment
  let profile ← chosenProfile forcedProfile args.profile app.run.profile
  let duration ← overridden args.duration Main.parseDuration app.run.duration
  let gpsInterval ← overridden args.gpsInterval Main.parseDuration app.run.gpsInterval
  return {
    app := { app with
      target := { app.target with server := args.server.getD app.target.server }
      environment
      run := { app.run with
        profile
        clients := args.clients.getD app.run.clients
        maxClients := args.maxClients.getD app.run.maxClients
        duration
        gpsInterval
        maxRate := args.maxRate.or app.run.maxRate }
      output := { app.output with
        lifecycleJsonl := app.output.lifecycleJsonl || args.output.lifecycleJsonl }
      authorization := { app.authorization with
        acknowledged := app.authorization.acknowledged || args.acknowledgeAuthorization } }
    json := args.output.json.or settings.json }

/-- The consent that the options give. -/
def RunArgs.safetyOptions (args : RunArgs) : SafetyOptions where
  allowProduction := args.allowProduction
  allowInvalidEvents := args.allowInvalidEvents

variable {settings settings' : Settings} {args : RunArgs} {forcedProfile : Option Profile}

theorem bind_eq_some_ok {α β : Type} {x : ExceptT String Option α}
    {f : α → ExceptT String Option β} {b : β} :
    x >>= f = some (.ok b) ↔ ∃ a, x = some (.ok a) ∧ f a = some (.ok b) := by
  rcases x with _ | ⟨error | a⟩
  · exact ⟨fun h => (by cases h), fun ⟨_, h, _⟩ => (by cases h)⟩
  · exact ⟨fun h => (by cases h), fun ⟨_, h, _⟩ => (by cases h)⟩
  · constructor
    · exact fun h => ⟨a, rfl, h⟩
    · rintro ⟨_, h, hrest⟩
      cases h
      exact hrest

/-- **What the options change**: the target, the environment, the amount of work, the outputs, and
the acknowledgement, which they can only add. -/
theorem applyOverrides_eq (h : applyOverrides settings args forcedProfile = some (.ok settings')) :
    ∃ environment profile duration gpsInterval,
      (args.environment = none → environment = settings.app.environment) ∧
      settings' =
        { app := { settings.app with
            target := { settings.app.target with
              server := args.server.getD settings.app.target.server }
            environment
            run := {
              profile
              clients := args.clients.getD settings.app.run.clients
              maxClients := args.maxClients.getD settings.app.run.maxClients
              duration
              gpsInterval
              maxRate := args.maxRate.or settings.app.run.maxRate }
            output := {
              lifecycleJsonl :=
                settings.app.output.lifecycleJsonl || args.output.lifecycleJsonl }
            authorization := {
              acknowledged :=
                settings.app.authorization.acknowledged || args.acknowledgeAuthorization } }
          json := args.output.json.or settings.json } := by
  simp only [applyOverrides, bind_eq_some_ok] at h
  obtain ⟨environment, henvironment, profile, -, duration, -, gpsInterval, -, hsettings⟩ := h
  refine ⟨environment, profile, duration, gpsInterval, fun hnone => ?_,
    (Except.ok.inj (Option.some.inj hsettings)).symm⟩
  rw [hnone] at henvironment
  exact (Except.ok.inj (Option.some.inj henvironment)).symm

/-! ## The checks of a run -/

/-- A configuration in which the use of the target is acknowledged. -/
def acknowledge (config : AppConfig) : AppConfig :=
  { config with authorization := { acknowledged := true } }

/-- `validate` checks a configuration with every consent. -/
def structural (config : AppConfig) : Except SafetyError Unit :=
  validateWithOptions (acknowledge config) { allowProduction := true, allowInvalidEvents := true }

/-- The consent that a configuration needs is given. -/
structure Consented (config : AppConfig) (options : SafetyOptions) : Prop where
  acknowledged : config.authorization.acknowledged = true
  production : config.environment = .production → options.allowProduction = true
  invalidEvents : config.scenario.invalid.enabled = true → config.environment = .staging →
    options.allowInvalidEvents = true

/-- The host is on the list, or it is this machine in a local environment. -/
def AllowsHost (allowHosts : List String) (config : AppConfig) : Prop :=
  let host := hostFromServer config.target.server
  host ∈ allowHosts ∨ (config.environment = .local ∧ isLoopback host = true)

variable {config : AppConfig} {options : SafetyOptions}

/-- The checks of the target and the workload, which need no consent. -/
def checkTarget (config : AppConfig) : Except SafetyError Unit := do
  let host := hostFromServer config.target.server
  let localLoopback := config.environment = .local && isLoopback host
  rejectIf (!localLoopback && !config.allowHosts.any (· = host)) (.hostNotAllowed host)
  validateWorkload config

/-- The checks of the consent, but for the acknowledgement. -/
def checkConsent (config : AppConfig) (options : SafetyOptions) : Except SafetyError Unit := do
  rejectIf (config.environment = .production && !options.allowProduction) .productionNotAllowed
  let environmentPermits := config.environment = .local || config.environment = .temporary ||
    (config.environment = .staging && options.allowInvalidEvents)
  rejectIf (config.scenario.invalid.enabled && !environmentPermits) .invalidEventsNotAllowed

theorem validateWithOptions_eq (config : AppConfig) (options : SafetyOptions) :
    validateWithOptions config options = (do
      rejectIf (!config.authorization.acknowledged) .authorizationRequired
      checkTarget config
      checkConsent config options) := by
  simp only [validateWithOptions, checkTarget, checkConsent, bind_assoc]

theorem structural_eq (config : AppConfig) : structural config = (do
    checkTarget config
    checkConsent config { allowProduction := true, allowInvalidEvents := true }) :=
  (validateWithOptions_eq (acknowledge config) _).trans rfl

theorem checkTarget_of_accepted (h : validateWithOptions config options = .ok ()) :
    checkTarget config = .ok () := by
  rw [validateWithOptions_eq] at h
  simp only [bind_eq_ok] at h
  obtain ⟨_, -, ⟨⟩, htarget, -⟩ := h
  exact htarget

theorem allowsHost_of_checkTarget (h : checkTarget config = .ok ()) :
    AllowsHost config.allowHosts config := by
  simp only [checkTarget, bind_eq_ok, rejectIf_eq_ok, Bool.and_eq_false_iff, Bool.not_eq_false',
    Bool.and_eq_true, decide_eq_true_eq, List.any_eq_true, exists_eq_right] at h
  obtain ⟨⟨⟩, hhost, -⟩ := h
  exact hhost.symm

/-- The errors for a consent that is not given. -/
def isConsentError : SafetyError → Bool
  | .authorizationRequired | .productionNotAllowed | .invalidEventsNotAllowed => true
  | _ => false

theorem consented_iff : Consented config options ↔
    config.authorization.acknowledged = true ∧
      (config.environment = .production → options.allowProduction = true) ∧
      (config.scenario.invalid.enabled = true → config.environment = .staging →
        options.allowInvalidEvents = true) :=
  ⟨fun h => ⟨h.acknowledged, h.production, h.invalidEvents⟩, fun h => ⟨h.1, h.2.1, h.2.2⟩⟩

/-- A run is accepted if `validate` accepts its configuration, and the consent is given. -/
theorem accepted_iff : validateWithOptions config options = .ok () ↔
    structural config = .ok () ∧ Consented config options := by
  rw [validateWithOptions_eq, structural_eq]
  simp only [consented_iff, checkConsent]
  cases checkTarget config with
  | error e => cases config.authorization.acknowledged <;> simp [rejectIf, bind, Except.bind]
  | ok _ =>
    cases config.authorization.acknowledged <;> cases config.environment <;>
      cases config.scenario.invalid.enabled <;> cases options.allowProduction <;>
      cases options.allowInvalidEvents <;> simp [rejectIf, bind, Except.bind]

/-- **What `validate` says of a run**: a run is accepted exactly if `validate` accepts its
configuration and the consent that it needs is given. If `validate` accepts it, consent is all that
a run can be refused for; if not, a run is refused for the same reason, or for a consent that is
asked for before. -/
theorem structural_decides (config : AppConfig) (options : SafetyOptions) :
    (validateWithOptions config options = .ok () ↔
      structural config = .ok () ∧ Consented config options) ∧
    (structural config = .ok () → ∀ e, validateWithOptions config options = .error e →
      isConsentError e = true ∧ ¬ Consented config options) ∧
    ∀ e, structural config = .error e → ∃ e', validateWithOptions config options = .error e' ∧
      (e' = e ∨ (e' = .authorizationRequired ∧ config.authorization.acknowledged = false) ∨
        (e' = .productionNotAllowed ∧ config.environment = .production ∧
          options.allowProduction = false)) := by
  refine ⟨accepted_iff, fun hstructural e he => ⟨?_, fun hconsented => ?_⟩, fun e he => ?_⟩
  · -- past the checks of the target, only the consent is left
    have htarget : checkTarget (acknowledge config) = .ok () := checkTarget_of_accepted hstructural
    change checkTarget config = .ok () at htarget
    rw [validateWithOptions_eq, htarget] at he
    revert he
    simp only [checkConsent]
    cases config.authorization.acknowledged <;> cases config.environment <;>
      cases config.scenario.invalid.enabled <;> cases options.allowProduction <;>
      cases options.allowInvalidEvents <;> simp [rejectIf, bind, Except.bind] <;> rintro rfl <;> rfl
  · cases he.symm.trans (accepted_iff.mpr ⟨hstructural, hconsented⟩)
  · rw [structural_eq] at he
    rw [validateWithOptions_eq]
    cases hacknowledged : config.authorization.acknowledged with
    | false => exact ⟨_, rfl, .inr (.inl ⟨rfl, rfl⟩)⟩
    | true =>
      cases htarget : checkTarget config with
      | error e₁ =>
        rw [htarget] at he
        obtain rfl : e₁ = e := Except.error.inj he
        exact ⟨_, rfl, .inl rfl⟩
      | ok _ =>
        -- invalid events in production, for which there is no consent
        rw [htarget] at he
        revert he
        simp only [checkConsent]
        cases config.environment <;> cases config.scenario.invalid.enabled <;>
          cases options.allowProduction <;> simp [rejectIf, bind, Except.bind]

/-! ## The checks and the options -/

/-- **What an accepted command line cannot do**: the host is allowed by the file, whatever the
options say, or it is this machine in a local environment. A run in production, invalid events in
staging and the target itself need a consent of their own. What is sent, by whom and over which
connections is what the file says. -/
theorem accepted_overrides (h : applyOverrides settings args forcedProfile = some (.ok settings'))
    (haccepted : validateWithOptions settings'.app args.safetyOptions = .ok ()) :
    AllowsHost settings.app.allowHosts settings'.app ∧
    (settings.app.authorization.acknowledged = true ∨ args.acknowledgeAuthorization = true) ∧
    (settings'.app.environment = .production → args.allowProduction = true) ∧
    (settings.app.scenario.invalid.enabled = true → settings'.app.environment = .staging →
      args.allowInvalidEvents = true) ∧
    (settings'.app.participants = settings.app.participants ∧
      settings'.app.scenario = settings.app.scenario ∧ settings'.app.tls = settings.app.tls ∧
      settings'.app.timeouts = settings.app.timeouts ∧
      settings'.app.reconnect = settings.app.reconnect ∧
      settings'.app.abort = settings.app.abort) := by
  have hhost := allowsHost_of_checkTarget (checkTarget_of_accepted haccepted)
  obtain ⟨-, hconsented⟩ := accepted_iff.mp haccepted
  obtain ⟨environment, profile, duration, gpsInterval, -, rfl⟩ := applyOverrides_eq h
  refine ⟨hhost, ?_, hconsented.production, hconsented.invalidEvents,
    rfl, rfl, rfl, rfl, rfl, rfl⟩
  simpa using hconsented.acknowledged

end TakBench
