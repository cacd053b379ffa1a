import TakBench.Names

/-!
# Start delays

The start delays are computed after the safety checks and before the first dial, and the steps of a
step ramp are checked only then. So an accepted configuration is rejected by the runner exactly when
it has a step ramp whose steps are not a ramp. The delays of a ramp are its steps, expanded: before
the last step as many clients have started as the steps say, and with the last step all.

## Main definitions

* `IsRamp`: the steps of a step ramp are ordered by time and by clients
* `expandSteps`: the delays of a ramp
* `clientsAt`, `lastStepAt`: the clients at a time, and the time of the last step

## Main results

* `isOk_stepLoop_iff`: the loop over the steps accepts exactly the ramps
* `isSome_spread`: a linear ramp does not overflow
* `startDelays_iff`: the start delays of an accepted configuration
* `countP_expandSteps`: the clients at a time, by telescoping
* `startDelays_exact`: what is scheduled, for each strategy
-/

namespace TakBench

variable {config : AppConfig}

/-- The steps are ordered by time and by clients, and none has more than all clients. -/
def IsRamp (clients : ℕ) (steps : List RampStep) : Prop :=
  steps.Pairwise (fun step later => step.startAt ≤ later.startAt ∧ step.clients ≤ later.clients) ∧
    ∀ step ∈ steps, step.clients.toNat ≤ clients

instance (clients : ℕ) (steps : List RampStep) : Decidable (IsRamp clients steps) :=
  inferInstanceAs (Decidable (_ ∧ _))

/-- **The loop over the steps** accepts exactly the ramps that go on from the last step. -/
theorem isOk_stepLoop_iff {clients : ℕ} {steps : List RampStep} {previousAt : Duration}
    {previousClients : ℕ} {result : List Duration} :
    (stepLoop clients steps previousAt previousClients result).isOk = true ↔
      IsRamp clients steps ∧
        ∀ step ∈ steps, previousAt ≤ step.startAt ∧ previousClients ≤ step.clients.toNat := by
  induction steps generalizing previousAt previousClients result with
  | nil => simp [stepLoop, IsRamp, Except.isOk, Except.toBool]
  | cons step steps ih =>
    rw [stepLoop]
    split
    · next hrejected =>
      -- the step is before the last one, or with fewer clients, or with too many
      simp only [Bool.or_eq_true, decide_eq_true_eq] at hrejected
      constructor
      · intro h
        cases h
      · rintro ⟨⟨-, hclients⟩, hprevious⟩
        obtain ⟨hat, hmore⟩ := hprevious step List.mem_cons_self
        have hmax := hclients step List.mem_cons_self
        rcases hrejected with (hbefore | hfewer) | hmany
        · exact absurd hat (Nat.not_le.mpr hbefore)
        · exact absurd hmore (Nat.not_le.mpr hfewer)
        · exact absurd hmax (Nat.not_le.mpr hmany)
    · next haccepted =>
      simp only [Bool.or_eq_true, decide_eq_true_eq, not_or, Nat.not_lt] at haccepted
      obtain ⟨⟨hat, hmore⟩, hmax⟩ := haccepted
      rw [ih]
      simp only [IsRamp, List.pairwise_cons, List.forall_mem_cons, UInt32.le_iff_toNat_le]
      constructor
      · -- what comes after the step comes after those before it
        rintro ⟨⟨hsorted, hclients⟩, hlater⟩
        refine ⟨⟨⟨hlater, hsorted⟩, hmax, hclients⟩, ⟨hat, hmore⟩, ?_⟩
        intro later hmem
        exact ⟨hat.trans (hlater later hmem).1, hmore.trans (hlater later hmem).2⟩
      · rintro ⟨⟨⟨hlater, hsorted⟩, -, hclients⟩, -, -⟩
        exact ⟨⟨hsorted, hclients⟩, hlater⟩

/-- A linear ramp does not overflow: every delay is a part of the ramp. -/
theorem isSome_spread {clients index : ℕ} {rampUp : Duration} (hindex : index < clients)
    (hrange : rampUp ≤ Duration.max) :
    (Duration.mulF64 rampUp (index / (max clients 1 : ℕ))).isSome = true := by
  have hclients : max clients 1 = clients := max_eq_left (Nat.one_le_of_lt hindex)
  have hpos : (0 : ℚ) < clients := by exact_mod_cast Nat.zero_lt_of_lt hindex
  have hfactor : (index : ℚ) / clients ≤ 1 := by
    rw [div_le_one hpos]
    exact_mod_cast hindex.le
  have hramp : (rampUp : ℚ) + 1 ≤ (Duration.bound : ℕ) := by
    have hbound : rampUp + 1 ≤ Duration.bound := Nat.succ_le_of_lt
      (Nat.lt_of_le_of_lt hrange (Nat.sub_lt (by decide) (by decide)))
    exact_mod_cast hbound
  have hnonneg : (0 : ℚ) ≤ index / clients := by positivity
  rw [hclients, Duration.mulF64, Duration.asSecsF64,
    Duration.isSome_fromSecsF64_iff (by positivity)]
  calc (index : ℚ) / clients * (rampUp / 1000000000) * 1000000000 + 1 / 2
      = (index : ℚ) / clients * rampUp + 1 / 2 := by ring
    _ ≤ 1 * rampUp + 1 / 2 := by gcongr
    _ < rampUp + 1 := by linarith
    _ ≤ (Duration.bound : ℕ) := hramp

/-- **The start delays of an accepted configuration** are computed exactly when it has no step
ramp, or its steps are one. -/
theorem startDelays_iff {options : SafetyOptions} {shuffle : ℕ → List Duration → List Duration}
    (h : validateWithOptions config options = .ok ()) :
    (∃ delays, startDelays shuffle (participants config).length config.scheduler = .ok delays) ↔
      (config.scheduler.strategy = .step →
        IsRamp config.run.clients.toNat config.scheduler.steps) := by
  have haccepted := accepted_of_validateWithOptions h
  rw [haccepted.length_participants.1, startDelays]
  cases hstrategy : config.scheduler.strategy with
  | step =>
    have hloop :
        (stepLoop config.run.clients.toNat config.scheduler.steps 0 0 []).isOk = true ↔ _ :=
      isOk_stepLoop_iff
    simp only [Nat.zero_le, and_self, implies_true, and_true] at hloop
    simp only [true_implies, ← hloop]
    cases stepLoop config.run.clients.toNat config.scheduler.steps 0 0 [] <;>
      simp [Except.isOk, Except.toBool]
  | _ => simp

/-! ## Step ramps that are accepted -/

/-- Two clients that are started one after the other. -/
def ramped : AppConfig where
  authorization := { acknowledged := true }
  run := { clients := 2 }
  scheduler :=
    { strategy := .step
      steps := [⟨0, 1⟩, ⟨Duration.fromSecs 10, 2⟩] }

/-- The same steps in the wrong order. -/
def unordered : AppConfig where
  authorization := { acknowledged := true }
  run := { clients := 2 }
  scheduler :=
    { strategy := .step
      steps := [⟨Duration.fromSecs 10, 2⟩, ⟨0, 1⟩] }

/-- The start delays of a step ramp. -/
theorem startDelays_iff_ramped :
    ∃ delays, startDelays (fun _ => id) (participants ramped).length ramped.scheduler =
      .ok delays :=
  (startDelays_iff (show validateWithOptions ramped {} = .ok () by decide)).mpr
    fun _ => by decide

/-- A configuration that is accepted, and then rejected for its steps. -/
theorem schedule_rejected :
    validateWithOptions unordered {} = .ok () ∧
      startDelays (fun _ => id) (participants unordered).length unordered.scheduler =
        .error .invalidSteps :=
  ⟨by decide, by decide⟩

/-! ## The schedule of a step ramp -/

/-- The delays that the steps of a ramp give, after `previousClients` clients have started. -/
def expandSteps (clients : ℕ) : List RampStep → Duration → ℕ → List Duration
  | [], previousAt, previousClients => List.replicate (clients - previousClients) previousAt
  | step :: steps, _, previousClients =>
    List.replicate (step.clients.toNat - previousClients) step.startAt ++
      expandSteps clients steps step.startAt step.clients.toNat

/-- The time of the last step, or of the one before if there is none. -/
def lastStepAt (previousAt : Duration) (steps : List RampStep) : Duration :=
  (steps.getLast?.map (·.startAt)).getD previousAt

/-- The clients of the last step up to a time, or of the one before if there is none. -/
def clientsAt (previousClients : ℕ) (steps : List RampStep) (t : Duration) : ℕ :=
  ((steps.filter (·.startAt ≤ t)).getLast?.map (·.clients.toNat)).getD previousClients

section Steps

variable {clients previousClients : ℕ} {steps : List RampStep} {previousAt t : Duration}
  {result delays : List Duration}

/-- The delays of an accepted ramp are the expansion of its steps. -/
theorem eq_of_stepLoop
    (h : stepLoop clients steps previousAt previousClients result = .ok delays) :
    delays = result ++ expandSteps clients steps previousAt previousClients := by
  induction steps generalizing previousAt previousClients result with
  | nil => exact (Except.ok.inj h).symm
  | cons step steps ih =>
    rw [stepLoop] at h
    split at h
    · cases h
    · rw [ih h, expandSteps, List.append_assoc]

/-- The steps go on from the last one, up to the number of clients. -/
def GoesOn (clients : ℕ) (steps : List RampStep) (previousAt : Duration) (previousClients : ℕ) :
    Prop :=
  IsRamp clients steps ∧
    ∀ step ∈ steps, previousAt ≤ step.startAt ∧ previousClients ≤ step.clients.toNat

theorem GoesOn.tail {step : RampStep}
    (h : GoesOn clients (step :: steps) previousAt previousClients) :
    GoesOn clients steps step.startAt step.clients.toNat ∧ previousAt ≤ step.startAt ∧
      previousClients ≤ step.clients.toNat ∧ step.clients.toNat ≤ clients := by
  obtain ⟨⟨hsorted, hclients⟩, hprevious⟩ := h
  obtain ⟨hlater, htail⟩ := List.pairwise_cons.mp hsorted
  obtain ⟨hat, hmore⟩ := hprevious step List.mem_cons_self
  refine ⟨⟨⟨htail, fun s hs => hclients s (List.mem_cons_of_mem _ hs)⟩, fun s hs => ?_⟩, hat, hmore,
    hclients step List.mem_cons_self⟩
  exact ⟨(hlater s hs).1, UInt32.le_iff_toNat_le.mp (hlater s hs).2⟩

/-- The steps telescope: each gives what it has more than the one before. -/
theorem length_expandSteps (h : GoesOn clients steps previousAt previousClients)
    (hclients : previousClients ≤ clients) :
    (expandSteps clients steps previousAt previousClients).length = clients - previousClients := by
  induction steps generalizing previousAt previousClients with
  | nil => exact List.length_replicate
  | cons step steps ih =>
    obtain ⟨htail, -, hmore, hmax⟩ := h.tail
    rw [expandSteps, List.length_append, List.length_replicate, ih htail hmax]
    omega

theorem le_of_mem_expandSteps (h : GoesOn clients steps previousAt previousClients) :
    ∀ delay ∈ expandSteps clients steps previousAt previousClients, previousAt ≤ delay := by
  induction steps generalizing previousAt previousClients with
  | nil =>
    intro delay hdelay
    exact (List.eq_of_mem_replicate hdelay).ge
  | cons step steps ih =>
    obtain ⟨htail, hat, -, -⟩ := h.tail
    intro delay hdelay
    rcases List.mem_append.mp hdelay with hdelay | hdelay
    · rw [List.eq_of_mem_replicate hdelay]
      exact hat
    · exact hat.trans (ih htail delay hdelay)

/-- The delays of a ramp are ordered. -/
theorem pairwise_expandSteps (h : GoesOn clients steps previousAt previousClients) :
    (expandSteps clients steps previousAt previousClients).Pairwise (· ≤ ·) := by
  induction steps generalizing previousAt previousClients with
  | nil => exact List.pairwise_replicate.mpr (.inr (Nat.le_refl _))
  | cons step steps ih =>
    obtain ⟨htail, -, -, -⟩ := h.tail
    refine List.pairwise_append.mpr ⟨List.pairwise_replicate.mpr (.inr (Nat.le_refl _)),
      ih htail, fun delay hdelay later hlater => ?_⟩
    rw [List.eq_of_mem_replicate hdelay]
    exact le_of_mem_expandSteps htail later hlater

theorem lastStepAt_cons (step : RampStep) :
    lastStepAt previousAt (step :: steps) = lastStepAt step.startAt steps := by
  rw [lastStepAt, lastStepAt, List.getLast?_cons]
  cases steps.getLast? <;> rfl

theorem le_lastStepAt (h : ∀ step ∈ steps, previousAt ≤ step.startAt) :
    previousAt ≤ lastStepAt previousAt steps := by
  rw [lastStepAt]
  cases hlast : steps.getLast? with
  | none => exact Nat.le_refl _
  | some step => exact h step (List.mem_of_getLast? hlast)

/-- No delay is later than the last step. -/
theorem le_lastStepAt_of_mem (h : GoesOn clients steps previousAt previousClients) :
    ∀ delay ∈ expandSteps clients steps previousAt previousClients,
      delay ≤ lastStepAt previousAt steps := by
  induction steps generalizing previousAt previousClients with
  | nil =>
    intro delay hdelay
    exact (List.eq_of_mem_replicate hdelay).le
  | cons step steps ih =>
    obtain ⟨htail, -, -, -⟩ := h.tail
    rw [lastStepAt_cons]
    intro delay hdelay
    rcases List.mem_append.mp hdelay with hdelay | hdelay
    · rw [List.eq_of_mem_replicate hdelay]
      exact le_lastStepAt fun s hs => (htail.2 s hs).1
    · exact ih htail delay hdelay

theorem clientsAt_cons_of_le {step : RampStep} (h : step.startAt ≤ t) :
    clientsAt previousClients (step :: steps) t = clientsAt step.clients.toNat steps t := by
  rw [clientsAt, clientsAt, List.filter_cons_of_pos (by simpa using h), List.getLast?_cons]
  cases (steps.filter (·.startAt ≤ t)).getLast? <;> rfl

/-- Before all steps the clients are those that have started before. -/
theorem clientsAt_of_lt (h : ∀ step ∈ steps, t < step.startAt) :
    clientsAt previousClients steps t = previousClients := by
  have hnone : steps.filter (·.startAt ≤ t) = [] := by
    rw [List.filter_eq_nil_iff]
    intro step hstep
    simpa using h step hstep
  rw [clientsAt, hnone]
  rfl

theorem le_clientsAt (h : ∀ step ∈ steps, previousClients ≤ step.clients.toNat) :
    previousClients ≤ clientsAt previousClients steps t := by
  rw [clientsAt]
  cases hlast : (steps.filter (·.startAt ≤ t)).getLast? with
  | none => exact Nat.le_refl _
  | some step => exact h step (List.mem_filter.mp (List.mem_of_getLast? hlast)).1

/-- **The clients at a time**: before the last step, as many more have started as the last step up
to then has more. -/
theorem countP_expandSteps (h : GoesOn clients steps previousAt previousClients)
    (ht : t < lastStepAt previousAt steps) :
    (expandSteps clients steps previousAt previousClients).countP (· ≤ t) =
      clientsAt previousClients steps t - previousClients := by
  induction steps generalizing previousAt previousClients with
  | nil =>
    -- the remainder starts with the step before
    have hlate : ¬ previousAt ≤ t := Nat.not_le.mpr ht
    simp [expandSteps, clientsAt, List.countP_replicate, hlate]
  | cons step steps ih =>
    obtain ⟨htail, -, hmore, -⟩ := h.tail
    rw [lastStepAt_cons] at ht
    rw [expandSteps, List.countP_append, List.countP_replicate, ih htail ht]
    by_cases hstep : step.startAt ≤ t
    · have hle : step.clients.toNat ≤ clientsAt step.clients.toNat steps t :=
        le_clientsAt fun s hs => (htail.2 s hs).2
      rw [clientsAt_cons_of_le hstep, if_pos (by simpa using hstep)]
      omega
    · -- neither the step nor one after it has come
      have hbefore : ∀ s ∈ step :: steps, t < s.startAt := by
        rintro s (_ | ⟨_, hs⟩)
        · exact Nat.not_le.mp hstep
        · exact (Nat.not_le.mp hstep).trans_le (htail.2 s hs).1
      have hlater : ∀ s ∈ steps, t < s.startAt := fun s hs => hbefore s (List.mem_cons_of_mem _ hs)
      rw [clientsAt_of_lt hbefore, clientsAt_of_lt hlater, if_neg (by simpa using hstep)]
      omega

end Steps

/-! ## Every schedule -/

section Schedules

variable {shuffle : ℕ → List Duration → List Duration} {clients : ℕ}
  {scheduler : SchedulerConfig} {delays : List Duration}

theorem goesOn_of_isRamp {steps : List RampStep} (h : IsRamp clients steps) :
    GoesOn clients steps 0 0 :=
  ⟨h, fun _ _ => ⟨Nat.zero_le _, Nat.zero_le _⟩⟩

/-- A step ramp is scheduled exactly if its steps are one, and then as its steps expand. -/
theorem startDelays_step (hstep : scheduler.strategy = .step) :
    startDelays shuffle clients scheduler = .ok delays ↔
      IsRamp clients scheduler.steps ∧ delays = expandSteps clients scheduler.steps 0 0 := by
  have hloop : startDelays shuffle clients scheduler = stepLoop clients scheduler.steps 0 0 [] := by
    simp only [startDelays, hstep]
  have hok : (stepLoop clients scheduler.steps 0 0 []).isOk = true ↔ _ := isOk_stepLoop_iff
  simp only [Nat.zero_le, and_self, implies_true, and_true] at hok
  rw [hloop, ← hok]
  constructor
  · intro h
    refine ⟨by rw [h]; rfl, ?_⟩
    rw [eq_of_stepLoop h, List.nil_append]
  · rintro ⟨h, rfl⟩
    cases hresult : stepLoop clients scheduler.steps 0 0 [] with
    | error e =>
      rw [hresult] at h
      cases h
    | ok delays => rw [eq_of_stepLoop hresult, List.nil_append]

/-- There is one delay for each client. -/
theorem length_startDelays (hshuffle : ∀ seed delays, (shuffle seed delays).Perm delays)
    (h : startDelays shuffle clients scheduler = .ok delays) : delays.length = clients := by
  cases hstrategy : scheduler.strategy with
  | step =>
    obtain ⟨hramp, rfl⟩ := (startDelays_step hstrategy).mp h
    exact length_expandSteps (goesOn_of_isRamp hramp) (Nat.zero_le _)
  | immediate =>
    simp only [startDelays, hstrategy] at h
    rw [← Except.ok.inj h, List.length_replicate]
  | linear =>
    simp only [startDelays, hstrategy] at h
    rw [← Except.ok.inj h]
    simp
  | randomized =>
    simp only [startDelays, hstrategy] at h
    rw [← Except.ok.inj h, (hshuffle _ _).length_eq]
    simp

/-- **The schedules are exact.** -/
theorem startDelays_exact (hshuffle : ∀ seed delays, (shuffle seed delays).Perm delays) :
    (∀ delays, startDelays shuffle clients scheduler = .ok delays → delays.length = clients ∧
      ∀ participants : List ParticipantConfig, participants.length = clients →
        (participants.zip delays).map (·.1) = participants) ∧
    (scheduler.strategy = .step →
      ((∃ delays, startDelays shuffle clients scheduler = .ok delays) ↔
        IsRamp clients scheduler.steps) ∧
      ∀ delays, startDelays shuffle clients scheduler = .ok delays →
        delays.Pairwise (· ≤ ·) ∧
        (∀ t < lastStepAt 0 scheduler.steps,
          delays.countP (· ≤ t) = clientsAt 0 scheduler.steps t) ∧
        ∀ delay ∈ delays, delay ≤ lastStepAt 0 scheduler.steps) ∧
    (scheduler.strategy = .randomized → ∃ delays linear,
      startDelays shuffle clients scheduler = .ok delays ∧
      startDelays shuffle clients { scheduler with strategy := .linear } = .ok linear ∧
      delays.Perm linear) := by
  refine ⟨fun delays h => ?_, fun hstep => ?_, fun hrandomized => ?_⟩
  · have hlength := length_startDelays hshuffle h
    refine ⟨hlength, fun participants hparticipants => ?_⟩
    exact List.map_fst_zip (by rw [hparticipants, hlength])
  · refine ⟨?_, fun delays h => ?_⟩
    · simp [startDelays_step hstep]
    · obtain ⟨hramp, rfl⟩ := (startDelays_step hstep).mp h
      have hgoes := goesOn_of_isRamp hramp
      refine ⟨pairwise_expandSteps hgoes, fun t ht => ?_, le_lastStepAt_of_mem hgoes⟩
      rw [countP_expandSteps hgoes ht, Nat.sub_zero]
  · simp only [startDelays, hrandomized]
    exact ⟨_, _, rfl, rfl, hshuffle _ _⟩

/-- The schedule of two clients that are started one after the other. -/
theorem startDelays_exact_ramped :
    ∃ delays, startDelays (fun _ => id) 2 ramped.scheduler = .ok delays ∧ delays.length = 2 ∧
      delays.countP (· ≤ 0) = 1 := by
  obtain ⟨hlength, hstep, -⟩ :=
    @startDelays_exact (fun _ => id) 2 ramped.scheduler fun _ _ => .refl _
  obtain ⟨hok, hcount⟩ := hstep rfl
  obtain ⟨delays, h⟩ := hok.mpr (by decide)
  exact ⟨delays, h, (hlength delays h).1, (hcount delays h).2.1 0 (by decide)⟩

end Schedules

end TakBench
