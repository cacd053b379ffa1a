import Mathlib.Data.List.Nodup
import TakBench.Safety

/-!
# The names of an accepted configuration

Participants are given in the configuration or generated from the number of clients. The checks
look at the participants three times, for their number, for their names and for the TLS templates,
and the runner expands them once more. An accepted configuration is closed under the names that
the runner uses: whatever it looks up by name is a participant in a role that fits.

## Main definitions

* `Accepted`: the workload checks, one by one
* `IsNamed`: a participant of the configuration has the name, and not the excluded role

## Main results

* `accepted_of_validateWorkload`: an accepted configuration has passed the checks
* `nodup_ids`, `isSafe_ids`: the names of its participants are distinct and safe in a path
* `names_closed`: an accepted configuration is closed under its names
-/

namespace TakBench

variable {config : AppConfig}

/-! ## The checks -/

/-- The workload checks that an accepted configuration has passed. -/
structure Accepted (config : AppConfig) : Prop where
  count : ∃ count, participantCount config = .ok count ∧ 0 < count ∧
    count ≤ config.run.maxClients.toNat
  routing : validateParticipantsAndRouting config = .ok ()
  synchronization : validateSynchronization config = .ok ()
  bounds : hasInvalidBounds config = false
  templates : validateTlsTemplates config = .ok ()

theorem accepted_of_validateWorkload (h : validateWorkload config = .ok ()) : Accepted config := by
  obtain ⟨count, hcount, hpos, hmax, hrouting, hsynchronization, hbounds, htemplates, -⟩ :=
    validateWorkload_eq_ok h
  exact ⟨⟨count, hcount, hpos, hmax⟩, hrouting, hsynchronization, hbounds, htemplates⟩

theorem accepted_of_validateWithOptions {options : SafetyOptions}
    (h : validateWithOptions config options = .ok ()) : Accepted config :=
  accepted_of_validateWorkload (validateWithOptions_eq_ok h).1

/-! ## Generated names -/

/-- The name of a generated participant. -/
def generatedName (index : ℕ) : String := "client-" ++ toString index

theorem toList_generatedName (index : ℕ) :
    (generatedName index).toList = "client-".toList ++ Nat.toDigits 10 index := by
  rw [generatedName, String.toList_append]
  exact congrArg _ Nat.toList_repr

theorem generatedName_injective : Function.Injective generatedName := by
  intro i j hij
  have hlists := congrArg String.toList hij
  rw [toList_generatedName, toList_generatedName, List.append_right_inj] at hlists
  calc i = Nat.ofDigitChars 10 (Nat.toDigits 10 i) 0 := Nat.ofDigitChars_ten_toDigits.symm
    _ = Nat.ofDigitChars 10 (Nat.toDigits 10 j) 0 := by rw [hlists]
    _ = j := Nat.ofDigitChars_ten_toDigits

/-- A generated name is safe in a path. -/
theorem isSafeParticipantId_generatedName (index : ℕ) :
    isSafeParticipantId (generatedName index) = true := by
  have hlist := toList_generatedName index
  have hchars : ∀ c ∈ (generatedName index).toList,
      (c.isAlphanum || c = '-' || c = '_' || c = '.') = true := by
    intro c hc
    rw [hlist, List.mem_append] at hc
    rcases hc with hc | hc
    · have hname : ("client-".toList.all fun c =>
          c.isAlphanum || c = '-' || c = '_' || c = '.') = true := by decide
      exact List.all_eq_true.mp hname c hc
    · have hdigit := Nat.isDigit_of_mem_toDigits (by decide) (by decide) hc
      simp [Char.isAlphanum, hdigit]
  -- the name starts with a letter, so it is neither empty nor a directory
  have hne : ∀ value : String, value.toList.head? ≠ some 'c' → generatedName index ≠ value := by
    rintro value hvalue rfl
    rw [hlist] at hvalue
    exact hvalue rfl
  simp only [isSafeParticipantId, Bool.and_eq_true, List.all_eq_true, decide_eq_true_eq]
  exact ⟨⟨⟨hne "" (by decide), hchars⟩, hne "." (by decide)⟩, hne ".." (by decide)⟩

/-! ## The participants -/

theorem ids_of_generated (hempty : config.participants.isEmpty = true) :
    (participants config).map (·.id) =
      (List.range config.run.clients.toNat).map generatedName := by
  rw [participants, if_pos hempty, List.map_map]
  rfl

namespace Accepted

variable (h : Accepted config)

include h

/-- The names of the participants are safe in a path. -/
theorem isSafe_ids : ∀ participant ∈ participants config,
    isSafeParticipantId participant.id = true := by
  intro participant hparticipant
  by_cases hempty : config.participants.isEmpty = true
  · have hid : participant.id ∈ (participants config).map (·.id) :=
      List.mem_map_of_mem hparticipant
    rw [ids_of_generated hempty] at hid
    obtain ⟨index, -, hindex⟩ := List.mem_map.mp hid
    rw [← hindex]
    exact isSafeParticipantId_generatedName index
  · have hchecked := h.routing
    rw [participants, if_neg hempty] at hparticipant
    simp only [validateParticipantsAndRouting, if_neg hempty, bind_eq_ok, rejectIf_eq_ok,
      Bool.or_eq_false_iff, List.any_eq_false] at hchecked
    obtain ⟨_, ⟨hsafe, -⟩, -⟩ := hchecked
    simpa using hsafe participant hparticipant

/-- The names of the participants are distinct. -/
theorem nodup_ids : ((participants config).map (·.id)).Nodup := by
  by_cases hempty : config.participants.isEmpty = true
  · rw [ids_of_generated hempty]
    exact List.Nodup.map generatedName_injective List.nodup_range
  · have hchecked := h.routing
    rw [participants, if_neg hempty]
    simp only [validateParticipantsAndRouting, if_neg hempty, bind_eq_ok, rejectIf_eq_ok,
      Bool.or_eq_false_iff] at hchecked
    obtain ⟨_, ⟨-, hnodup⟩, -⟩ := hchecked
    simpa using hnodup

/-- There are as many participants as clients. -/
theorem length_participants : (participants config).length = config.run.clients.toNat ∧
    1 ≤ (participants config).length ∧
    (participants config).length ≤ config.run.maxClients.toNat := by
  obtain ⟨count, hcount, hpos, hmax⟩ := h.count
  obtain ⟨hlength, hclients⟩ := participantCount_eq_ok hcount
  rw [← hlength]
  exact ⟨hclients, hpos, hmax⟩

/-- The TLS files of every participant are resolved, and no template is left. -/
theorem resolves_tls : ∀ participant ∈ participants config, ∃ tls,
    config.tls.forParticipant participant.id = .ok tls ∧ tls.clientCertTemplate = none ∧
      tls.clientKeyTemplate = none := by
  intro participant hparticipant
  have hchecked := h.templates
  rw [validateTlsTemplates, rejectIf_eq_ok, List.any_eq_false] at hchecked
  have hok := hchecked participant hparticipant
  split at hok
  · next tls htls =>
    refine ⟨tls, htls, ?_⟩
    rw [TlsConfig.forParticipant] at htls
    split at htls
    · next hcert hkey =>
      obtain rfl := Except.ok.inj htls
      exact ⟨hcert, hkey⟩
    · split at htls
      · cases htls
      · obtain rfl := Except.ok.inj htls
        exact ⟨rfl, rfl⟩
    · cases htls
  · exact absurd rfl hok

end Accepted

/-! ## Names that are looked up -/

/-- A participant has the name, and not the excluded role. -/
def IsNamed (config : AppConfig) (excluded : ParticipantRole) (id : String) : Prop :=
  ∃ participant ∈ participants config, participant.id = id ∧ participant.role ≠ excluded

theorem isNamed_of_isRoutable {excluded : ParticipantRole} {id : String}
    (h : isRoutable config excluded id = true) : IsNamed config excluded id := by
  rw [isRoutable] at h
  split at h
  · cases h
  · next participant hfound =>
    have hmem := List.mem_of_find?_eq_some hfound
    have hne : config.participants.isEmpty = false := by
      rw [List.isEmpty_eq_false_iff]
      exact List.ne_nil_of_mem hmem
    refine ⟨participant, ?_, by simpa using List.find?_some hfound, of_decide_eq_true h⟩
    rwa [participants, if_neg (by simp [hne])]

namespace Accepted

variable (h : Accepted config)

include h

/-- The participants that a routing assertion names. -/
theorem isNamed_routing : ∀ assertion ∈ config.scenario.routing,
    IsNamed config .receiveOnly assertion.sender ∧
      ∀ id ∈ assertion.receivers ++ assertion.forbiddenReceivers, IsNamed config .sendOnly id := by
  intro assertion hassertion
  have hchecked := h.routing
  rw [validateParticipantsAndRouting] at hchecked
  split at hchecked
  -- without explicit participants there is no routing assertion
  · rw [rejectIf_eq_ok, Bool.not_eq_false', List.isEmpty_iff] at hchecked
    rw [hchecked] at hassertion
    cases hassertion
  · simp only [bind_eq_ok, rejectIf_eq_ok] at hchecked
    obtain ⟨_, -, hrouting⟩ := hchecked
    have hnames := List.any_eq_false.mp hrouting assertion hassertion
    simp only [Bool.or_eq_true, not_or, Bool.not_eq_true', Bool.not_eq_false,
      List.any_eq_true, not_exists, not_and] at hnames
    obtain ⟨⟨hsender, -⟩, hreceivers⟩ := hnames
    exact ⟨isNamed_of_isRoutable hsender, fun id hid => isNamed_of_isRoutable (hreceivers id hid)⟩

/-- The participants that the barrier waits for. -/
theorem waitForReady : config.synchronization.waitForReady.Nodup ∧
    ∀ id ∈ config.synchronization.waitForReady,
      ∃ participant ∈ participants config, participant.id = id := by
  have hchecked := h.synchronization
  rw [validateSynchronization] at hchecked
  split at hchecked
  · next hempty =>
    rw [List.isEmpty_iff] at hempty
    simp [hempty]
  · simp only [rejectIf_eq_ok, Bool.or_eq_false_iff, Bool.not_eq_false', decide_eq_true_eq,
      List.any_eq_false, Bool.not_eq_true', List.any_eq_false] at hchecked
    obtain ⟨⟨⟨hexplicit, -⟩, hnodup⟩, hnames⟩ := hchecked
    refine ⟨hnodup, fun id hid => ?_⟩
    rw [participants, if_neg (by simp [hexplicit])]
    simpa using hnames id hid

end Accepted

/-- **An accepted configuration is closed under the names that the runner uses.** -/
theorem names_closed (h : validateWorkload config = .ok ()) :
    (participants config).length = config.run.clients.toNat ∧
    (1 ≤ (participants config).length ∧
      (participants config).length ≤ config.run.maxClients.toNat) ∧
    ((participants config).map (·.id)).Nodup ∧
    (∀ participant ∈ participants config, isSafeParticipantId participant.id = true ∧ ∃ tls,
      config.tls.forParticipant participant.id = .ok tls ∧ tls.clientCertTemplate = none ∧
        tls.clientKeyTemplate = none) ∧
    (∀ assertion ∈ config.scenario.routing, IsNamed config .receiveOnly assertion.sender ∧
      (∀ id ∈ assertion.receivers, IsNamed config .sendOnly id) ∧
      ∀ id ∈ assertion.forbiddenReceivers, IsNamed config .sendOnly id) ∧
    config.synchronization.waitForReady.Nodup ∧
    ∀ id ∈ config.synchronization.waitForReady,
      ∃ participant ∈ participants config, participant.id = id := by
  have haccepted := accepted_of_validateWorkload h
  obtain ⟨hlength, hbounds⟩ := haccepted.length_participants
  refine ⟨hlength, hbounds, haccepted.nodup_ids, fun participant hparticipant => ?_,
    fun assertion hassertion => ?_, haccepted.waitForReady⟩
  · exact ⟨haccepted.isSafe_ids participant hparticipant,
      haccepted.resolves_tls participant hparticipant⟩
  · -- the two lists of receivers are checked as one
    obtain ⟨hsender, hreceivers⟩ := haccepted.isNamed_routing assertion hassertion
    exact ⟨hsender, fun id hid => hreceivers id (List.mem_append_left _ hid),
      fun id hid => hreceivers id (List.mem_append_right _ hid)⟩

/-- A configuration with TLS templates, and two generated participants. -/
def templated : AppConfig where
  tls :=
    { enabled := true
      clientCertTemplate := some "certs/\x7bparticipant_id\x7d.pem"
      clientKeyTemplate := some "certs/\x7bparticipant_id\x7d.key" }
  run := { clients := 2 }

/-- The generated names of a configuration with templates. -/
theorem names_closed_templated : ((participants templated).map (·.id)).Nodup :=
  (names_closed (show validateWorkload templated = .ok () by decide)).2.2.1

end TakBench
