import TakBench.Backoff
import TakBench.Scenario.Counters

/-!
# The pace of the dials

A participant dials for the first time after its start delay, and it backs off before each further
dial, whether the dial before failed or its session did. So the dials of a participant are apart by
the backoffs of their attempts, over all its connections, and a server that refuses everybody is
dialed no more often than the shortest backoff allows.

## Main definitions

* `MayDial`, `Spaced`: when the next dial may be made, and dials that are made at such times
* `Participant.Paces`: where a participant stands between its dials
* `Run.dialsOf`: the times at which a task dials
* `shortestBackoff`: the backoff before the first reconnect, with the smallest factor

## Main results

* `Participant.Paces.step`: a step dials only when it may
* `Spaced.length_le`: how many dials there may be until a time
* `Run.dials_spaced`: the dials of a run
-/

namespace TakBench

variable {P : Platform} {participant : ParticipantConfig} {config : AppConfig} {w : World}
  {p p' : Participant} {act : ParticipantAct} {out : List Effect} {delay : Duration}
  {dials : List Instant}

/-! ## Dials that are apart -/

/-- May the next dial be made at a time, after the earlier ones, the last one first? -/
def MayDial (config : AppConfig) (delay : Duration) (dials : List Instant) (time : Instant) :
    Prop :=
  match dials with
  | [] => delay ≤ time
  | last :: earlier => ∃ factor backoff, IsFactor config factor ∧
      reconnectDelay config (earlier.length + 1) factor = some backoff ∧ last + backoff ≤ time

/-- The dials are made when they may be, and before the end of the run. -/
def Spaced (config : AppConfig) (delay : Duration) : List Instant → Prop
  | [] => True
  | time :: earlier => MayDial config delay earlier time ∧ time < config.run.duration ∧
      Spaced config delay earlier

theorem MayDial.later {time time' : Instant} (h : MayDial config delay dials time)
    (hle : time ≤ time') : MayDial config delay dials time' := by
  cases dials with
  | nil => exact h.trans hle
  | cons last earlier =>
    obtain ⟨factor, backoff, hfactor, hbackoff, hlast⟩ := h
    exact ⟨factor, backoff, hfactor, hbackoff, hlast.trans hle⟩

/-- The backoff before the first reconnect, with the smallest factor. -/
def shortestBackoff (config : AppConfig) : Duration :=
  Rounding.halfEven ((1 - jitter config) * baseBackoff config 1)

/-- No backoff is shorter. -/
theorem shortestBackoff_le {attempt : ℕ} {factor : ℚ} {backoff : Duration}
    (hattempt : 1 ≤ attempt) (hfactor : IsFactor config factor)
    (h : reconnectDelay config attempt factor = some backoff) :
    shortestBackoff config ≤ backoff := by
  have hone : jitter config ≤ 1 := jitter_le_one
  have hbase : ((baseBackoff config 1 : ℕ) : ℚ) ≤ (baseBackoff config attempt : ℕ) := by
    exact_mod_cast baseBackoff_mono hattempt
  have hnonneg : (0 : ℚ) ≤ (1 - jitter config) * (baseBackoff config 1 : ℕ) :=
    mul_nonneg (by linarith) (Nat.cast_nonneg _)
  by_cases hjitter : config.reconnect.jitterPercent = 0
  · -- without jitter the backoff is the base
    have hzero : jitter config = 0 := by
      rw [jitter, hjitter]
      norm_num
    rw [reconnectDelay_of_steady hjitter] at h
    obtain rfl := Option.some.inj h
    rw [shortestBackoff, Rounding.halfEven_le_iff hnonneg, hzero]
    left
    linarith
  · rw [reconnectDelay_of_jitter hjitter, Duration.mulF64, Duration.fromSecsF64] at h
    split at h
    · cases h
    simp only [Option.ite_none_right_eq_some, Option.some.injEq] at h
    obtain ⟨-, rfl⟩ := h
    -- the product grows with the factor and with the base
    apply Rounding.halfEven_mono hnonneg
    have hnanos : factor * Duration.asSecsF64 (baseBackoff config attempt) * 1000000000 =
        factor * (baseBackoff config attempt : ℕ) := by
      rw [Duration.asSecsF64]
      ring
    rw [hnanos]
    exact mul_le_mul hfactor.1 hbase (Nat.cast_nonneg _) (by linarith [hfactor.1])

/-- **How many dials there may be** until a time. -/
theorem Spaced.length_le {time : Instant} (h : Spaced config delay (time :: dials)) :
    delay + dials.length * shortestBackoff config ≤ time := by
  induction dials generalizing time with
  | nil =>
    rw [List.length_nil, Nat.zero_mul]
    exact h.1
  | cons last earlier ih =>
    obtain ⟨⟨factor, backoff, hfactor, hbackoff, hlast⟩, -, hrest⟩ := h
    have hshortest := shortestBackoff_le (Nat.le_add_left 1 _) hfactor hbackoff
    calc delay + (earlier.length + 1) * shortestBackoff config
        = delay + earlier.length * shortestBackoff config + shortestBackoff config := by ring
      _ ≤ last + backoff := Nat.add_le_add (ih hrest) hshortest
      _ ≤ time := hlast

/-! ## A participant between its dials -/

namespace Participant

/-- Where a participant stands between its dials, the last of which comes first. -/
def Waits (config : AppConfig) (delay : Duration) (p : Participant) (now : Instant)
    (dials : List Instant) : Prop :=
  match p.phase with
  | .spawned delay' => delay' = delay ∧ dials = []
  | .ramping endsAt => delay ≤ endsAt ∧ dials = []
  | .looping => dials.length = p.attempt ∧ MayDial config delay dials now
  | .backingOff endsAt _ => dials.length = p.attempt ∧ MayDial config delay dials endsAt
  | .dialing | .sampling _ | .marking | .notifying | .connected _ | .retrying _ =>
    ∃ last earlier, dials = last :: earlier ∧ earlier.length = p.attempt ∧ last ≤ now
  | .returned _ | .panicked => True

/-- The dials so far are apart, and the next one will be. -/
structure Paces (config : AppConfig) (delay : Duration) (p : Participant) (now : Instant)
    (dials : List Instant) : Prop where
  spaced : Spaced config delay dials
  waits : p.Waits config delay now dials

theorem Paces.later {now now' : Instant} (h : p.Paces config delay now dials) (hle : now ≤ now') :
    p.Paces config delay now' dials := by
  refine ⟨h.spaced, ?_⟩
  have hwaits := h.waits
  unfold Waits at hwaits ⊢
  split at hwaits
  · exact hwaits
  · exact hwaits
  · exact ⟨hwaits.1, hwaits.2.later hle⟩
  · exact hwaits
  all_goals first
    | exact trivial
    | obtain ⟨last, earlier, hdials, hlength, hlast⟩ := hwaits
      exact ⟨last, earlier, hdials, hlength, hlast.trans hle⟩

/-- Is a dial made in a step? -/
def dialsIn (now : Instant) (out : List Effect) : List Instant :=
  if .add .connectionAttempts 1 ∈ out then [now] else []

/-- What records no dial adds none. -/
theorem dialsIn_of_notMem {now : Instant} (h : .add .connectionAttempts 1 ∉ out) :
    dialsIn now out = [] := if_neg h

/-- A step that is no dial and after which nothing is left to wait for, or as much as before. -/
theorem Paces.goto {phase : ParticipantPhase} {now : Instant} (hp : p.Paces config delay now dials)
    (hwaits : (p.goto phase).Waits config delay now dials)
    (hout : .add .connectionAttempts 1 ∉ out) :
    (p.goto phase).Paces config delay now (dialsIn now out ++ dials) := by
  rw [dialsIn_of_notMem hout]
  exact ⟨hp.spaced, hwaits⟩

theorem notMem_recordConnected (sample : ConnectionSample) :
    .add .connectionAttempts 1 ∉ recordConnected participant sample := by
  cases sample <;> simp [recordConnected, recordSample]

theorem notMem_recordConnectFailed (error : ConnectError) :
    .add .connectionAttempts 1 ∉ recordConnectFailed config error := by
  rw [recordConnectFailed]
  split <;> split <;> simp

theorem notMem_recordSessionOver (result : Except Failure Unit) :
    .add .connectionAttempts 1 ∉ recordSessionOver participant config w p result := by
  cases result with
  | ok _ => simp [recordSessionOver]
  | error failure =>
    simp only [recordSessionOver]
    split <;> split <;> simp

theorem notMem_of_session {session session' : Session} {a : SessionAct}
    (h : session.step P participant config w a = some (session', out)) :
    .add .connectionAttempts 1 ∉ out := by
  intro hmem
  exact absurd (Session.step_ofSession h _ hmem) (by simp [Effect.OfSession, Counter.isEvent])

/-- A delay that is entered ends after it. -/
theorem eq_of_enterDelay {deadline endsAt : Instant} {d : Duration}
    (h : enterDelay w deadline d = some endsAt) : endsAt = w.now + d := by
  rw [enterDelay] at h
  split at h
  · cases h
  · exact (Option.some.inj h).symm

/-- A backoff is entered with the dials that there are. -/
theorem waits_retry {failure : Failure} {factor : ℚ} {now : Instant}
    (hnow : w.now = now) (hfactor : isJitter config factor = true)
    (h : ∃ last earlier, dials = last :: earlier ∧ earlier.length = p.attempt ∧ last ≤ now) :
    (p.retry config w failure factor).Waits config delay now dials := by
  obtain ⟨last, earlier, rfl, hlength, hlast⟩ := h
  unfold retry
  split
  · trivial
  · unfold backOff
    split
    · trivial
    · next backoff hbackoff =>
      split
      · unfold cutBackoff
        trivial
      · next endsAt hends =>
        obtain rfl := eq_of_enterDelay hends
        refine ⟨congrArg (· + 1) hlength, factor, backoff, ?_, ?_, ?_⟩
        · simpa [isJitter, IsFactor, jitter] using hfactor
        · rw [hlength]
          exact hbackoff
        · rw [hnow]
          exact Nat.add_le_add_right hlast backoff

/-- **A step dials only when it may.** -/
theorem Paces.step (hp : p.Paces config delay w.now dials)
    (h : p.step P participant config w act = some (p', out)) :
    p'.Paces config delay w.now (dialsIn w.now out ++ dials) := by
  have hwaits := hp.waits
  unfold Waits at hwaits
  cases steps_of_step h with
  | ramp d endsAt hphase hends =>
    rw [hphase] at hwaits
    obtain ⟨rfl, rfl⟩ := hwaits
    refine hp.goto ⟨?_, rfl⟩ (by simp)
    rw [eq_of_enterDelay hends]
    exact Nat.le_add_left _ _
  | enter endsAt hphase hdue =>
    rw [hphase] at hwaits
    obtain ⟨hdelay, rfl⟩ := hwaits
    refine ⟨trivial, ?_⟩
    unfold enter
    split
    · trivial
    · exact ⟨rfl, hdelay.trans hdue⟩
  | redial endsAt failure hphase hdue =>
    rw [hphase] at hwaits
    exact hp.goto ⟨hwaits.1, hwaits.2.later hdue⟩ (by simp)
  | dial hphase hstop hnow =>
    -- the one step that dials
    rw [hphase] at hwaits
    exact ⟨⟨hwaits.2, hnow, hp.spaced⟩, w.now, dials, rfl, hwaits.1, Nat.le_refl _⟩
  | connect handshakeTime hphase =>
    rw [hphase] at hwaits
    exact hp.goto hwaits (by simp [countConnected])
  | reconnect elapsed hphase =>
    rw [hphase] at hwaits
    exact hp.goto hwaits (by simp)
  | openRequired sample hphase =>
    rw [hphase] at hwaits
    exact hp.goto hwaits (notMem_recordConnected sample)
  | openSession sample hphase =>
    rw [hphase] at hwaits
    exact hp.goto hwaits (notMem_recordConnected sample)
  | connectRetried error source hphase =>
    rw [hphase] at hwaits
    exact hp.goto hwaits (notMem_recordConnectFailed error)
  | connectFails error source hphase =>
    exact hp.goto trivial (notMem_recordConnectFailed error)
  | marked hphase =>
    rw [hphase] at hwaits
    exact hp.goto hwaits (by simp)
  | notified hphase =>
    rw [hphase] at hwaits
    exact hp.goto hwaits (by simp)
  | session session session' a out hphase hsession =>
    rw [hphase] at hwaits
    exact hp.goto hwaits (notMem_of_session hsession)
  | sessionOver result hphase =>
    rw [hphase] at hwaits
    refine hp.goto ?_ (notMem_recordSessionOver result)
    cases result with
    | ok _ => trivial
    | error failure =>
      simp only [afterSession]
      split
      · trivial
      · exact hwaits
  | retry factor failure hphase hfactor =>
    rw [hphase] at hwaits
    exact ⟨hp.spaced, waits_retry rfl hfactor hwaits⟩
  | backoffCut endsAt failure hphase =>
    refine hp.goto ?_ (by simp)
    unfold cutBackoff
    trivial
  | startOver | rampCut | leave | dialStopped | dialDeadline =>
    exact hp.goto trivial (by simp)

end Participant

/-! ## The dials of a run -/

namespace Run

variable {r r' r₀ : Run} {a : RunAct} {acts : List RunAct} {i : ℕ}

/-- Does the task dial in a step, and when? -/
def dialOf (P : Platform) (config : AppConfig) (i : ℕ) (r : Run) : RunAct → List Instant
  | .task j act =>
    if j = i then
      match r.tasks[i]? with
      | none => []
      | some task => Participant.dialsIn r.world.now
          ((task.state.step P task.participant config r.world act).elim [] Prod.snd)
    else []
  | _ => []

/-- The times at which the task dials in a run. -/
def dialsOf (P : Platform) (config : AppConfig) (i : ℕ) : Run → List RunAct → List Instant :=
  (machine P config).trace (dialOf P config i)

/-- The dials of the task are apart. -/
def PacesAt (config : AppConfig) (i : ℕ) (delay : Duration) (r : Run) (dials : List Instant) :
    Prop :=
  ∃ task, r.tasks[i]? = some task ∧
    task.state.Paces config delay r.world.now dials.reverse

theorem PacesAt.step (hr : r.PacesAt config i delay dials) (h : r.step P config a = some r') :
    r'.PacesAt config i delay (dials ++ r.dialOf P config i a) := by
  obtain ⟨task, hi, hpaces⟩ := hr
  rcases step_cases h with ⟨j, act, other, state, effects, rfl, hget, hstep, rfl⟩ | ⟨hact, hidle⟩
  · have hnow : (r.advance j other state effects).world.now = r.world.now :=
      World.applyAll_now _ _
    by_cases hij : j = i
    · subst hij
      obtain rfl := Option.some.inj (hget.symm.trans hi)
      have hlt : j < r.tasks.length := (List.getElem?_eq_some_iff.mp hget).1
      have hdial : r.dialOf P config j (.task j act) =
          Participant.dialsIn r.world.now effects := by
        simp only [dialOf, if_pos, hget, hstep, Option.elim_some]
      have hone : (Participant.dialsIn r.world.now effects).reverse =
          Participant.dialsIn r.world.now effects := by
        unfold Participant.dialsIn
        split <;> rfl
      refine ⟨_, List.getElem?_set_self hlt, ?_⟩
      rw [hnow, hdial, List.reverse_append, hone]
      exact hpaces.step hstep
    · have hdial : r.dialOf P config i (.task j act) = [] := if_neg hij
      refine ⟨task, (List.getElem?_set_ne hij).trans hi, ?_⟩
      rw [hnow, hdial, List.append_nil]
      exact hpaces
  · have hdial : r.dialOf P config i a = [] := by
      cases a with
      | task j act => exact absurd rfl (hact j act)
      | _ => rfl
    refine ⟨task, by rw [hidle.tasks, hi], ?_⟩
    rw [hdial, List.append_nil]
    exact hpaces.later hidle.now

/-- A run that starts has computed its start delays. -/
theorem exists_startDelays {started : ℤ} {shuffle : ℕ → List Duration → List Duration}
    {options : SafetyOptions} {stop : Bool}
    (h : start config started shuffle options stop = .ok r) :
    ∃ delays, startDelays shuffle (participants config).length config.scheduler = .ok delays ∧
      r = spawn config delays stop := by
  rw [start] at h
  split at h
  · cases h
  split at h
  · cases h
  split at h
  · cases h
  split at h
  · cases h
  next delays hdelays =>
  split at h
  · cases h
  · exact ⟨delays, hdelays, (Except.ok.inj h).symm⟩

/-- The task at an index waits for the delay at the index. -/
theorem pacesAt_spawn {delays : List Duration} {stop : Bool}
    (hparticipant : (participants config)[i]? = some participant)
    (hdelay : delays[i]? = some delay) : (spawn config delays stop).PacesAt config i delay [] := by
  have hzip : ((participants config).zip delays)[i]? = some (participant, delay) :=
    List.getElem?_zip_eq_some.mpr ⟨hparticipant, hdelay⟩
  have htask : (spawn config delays stop).tasks[i]? =
      some ⟨participant, Participant.spawn delay, []⟩ := by
    rw [spawn, List.getElem?_map, hzip]
    rfl
  exact ⟨_, htask, trivial, rfl, rfl⟩

/-- The dials of a task are apart in every reachable run. -/
theorem pacesAt_of_start {started : ℤ} {shuffle : ℕ → List Duration → List Duration}
    {options : SafetyOptions} {stop : Bool} {delays : List Duration}
    (hstart : start config started shuffle options stop = .ok r₀)
    (hdelays : startDelays shuffle (participants config).length config.scheduler = .ok delays)
    (hparticipant : (participants config)[i]? = some participant)
    (hdelay : delays[i]? = some delay) (h : (machine P config).exec r₀ acts = some r) :
    r.PacesAt config i delay (dialsOf P config i r₀ acts) := by
  obtain ⟨delays', hdelays', rfl⟩ := exists_startDelays hstart
  obtain rfl := Except.ok.inj (hdelays.symm.trans hdelays')
  have hall : r.PacesAt config i delay ([] ++ dialsOf P config i (spawn config delays stop) acts) :=
    Machine.exec_invariant_trace (m := machine P config) (C := fun _ _ => True)
      (I := PacesAt config i delay) (fun _ _ _ _ hr _ hstep => hr.step hstep)
      (Machine.along_of_forall fun _ _ _ => trivial) (pacesAt_spawn hparticipant hdelay) h
  exact hall

/-- **The dials of a run**: a participant dials for the first time after its start delay, each
further dial comes after a backoff of its attempt in the range of the jitter, and none after the end
of the run; so there are no more of them than the shortest backoff allows. -/
theorem dials_spaced {started : ℤ} {shuffle : ℕ → List Duration → List Duration}
    {options : SafetyOptions} {stop : Bool} {delays : List Duration}
    (hstart : start config started shuffle options stop = .ok r₀)
    (hdelays : startDelays shuffle (participants config).length config.scheduler = .ok delays)
    (hparticipant : (participants config)[i]? = some participant)
    (hdelay : delays[i]? = some delay)
    (h : (machine P config).exec r₀ acts = some r) :
    Spaced config delay (dialsOf P config i r₀ acts).reverse ∧
      ∀ last ∈ (dialsOf P config i r₀ acts).getLast?,
        delay + ((dialsOf P config i r₀ acts).length - 1) * shortestBackoff config ≤ last ∧
          last < config.run.duration := by
  have hpaces := pacesAt_of_start hstart hdelays hparticipant hdelay h
  generalize dialsOf P config i r₀ acts = dials at hpaces ⊢
  obtain ⟨task, -, hspaced, -⟩ := hpaces
  refine ⟨hspaced, fun last hlast => ?_⟩
  obtain ⟨earlier, rfl⟩ := List.getLast?_eq_some_iff.mp hlast
  rw [List.reverse_append] at hspaced
  have hlength : delay + earlier.reverse.length * shortestBackoff config ≤ last :=
    Spaced.length_le hspaced
  rw [List.length_reverse] at hlength
  rw [List.length_append]
  exact ⟨hlength, hspaced.2.1⟩

/-- The dials of a participant that has connected again. -/
theorem dials_spaced_redialed :
    ∃ r, (machine Reference.platform Redialed.patient).exec
        (spawn Redialed.patient [0] false) Redialed.redialing = some r ∧
      dialsOf Reference.platform Redialed.patient 0 (spawn Redialed.patient [0] false)
        Redialed.redialing = [0, Duration.fromMillis 250] ∧
      Spaced Redialed.patient 0 [Duration.fromMillis 250, 0] := by
  have hstart : start Redialed.patient 0 (fun _ => id) {} false =
      .ok (spawn Redialed.patient [0] false) := rfl
  have hexec : ((machine Reference.platform Redialed.patient).exec
      (spawn Redialed.patient [0] false) Redialed.redialing).isSome = true := by decide +kernel
  have hdials : dialsOf Reference.platform Redialed.patient 0 (spawn Redialed.patient [0] false)
      Redialed.redialing = [0, Duration.fromMillis 250] := by decide +kernel
  obtain ⟨r, hr⟩ := Option.isSome_iff_exists.mp hexec
  have hspaced := (dials_spaced (i := 0) hstart rfl rfl rfl hr).1
  rw [hdials] at hspaced
  exact ⟨r, hr, hdials, hspaced⟩

end Run

end TakBench
