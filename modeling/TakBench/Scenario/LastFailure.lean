import TakBench.Protocol.Reference
import TakBench.Safety
import TakBench.Scenario.Participant

/-!
# The last failure of a participant

A participant whose last connect or session ended in an error returns an error, unless a step
forgets the failure: the deadline that is seen at the head of the loop or during a dial ends the
participant well, and a backoff that overflows panics.

## Main definitions

* `Participant.forgets`: the steps that forget a failure
* `Participant.Remembers`: the last failure in terms of the phase

## Main results

* `Participant.remembers_step`: a step remembers the last failure, or forgets it
* `Participant.last_failure_iff`: a participant fails with its last failure exactly when no step
  forgets one
-/

namespace TakBench

variable {P : Platform} {participant : ParticipantConfig} {config : AppConfig} {w : World}
  {out : List Effect}

namespace Participant

/-! ## Remembering a failure -/

/-- Does the step forget a failure? -/
def forgets (config : AppConfig) (w : World) (p : Participant) : ParticipantAct → Bool
  | .enterLoop | .dialDeadline => 0 < p.attempt && config.run.duration ≤ w.now
  | .retry factor =>
    p.attempt < config.reconnect.maxAttempts.toNat &&
      (reconnectDelay config (p.attempt + 1) factor).isNone
  | _ => false

/-- The end of the last connect or session, in terms of the phase. A participant that is about to
dial has failed before exactly when it has tried before. -/
def Remembers (s : Participant × List Effect) : Prop :=
  match s.1.phase with
  | .spawned _ | .ramping _ => s.1.attempt = 0 ∧ endedInError s.2 = false
  | .looping | .dialing => endedInError s.2 = decide (0 < s.1.attempt)
  | .sampling _ | .marking | .notifying | .connected _ | .panicked => endedInError s.2 = false
  | .retrying _ => endedInError s.2 = true
  | .backingOff _ _ => endedInError s.2 = true ∧ 0 < s.1.attempt
  | .returned result => endedInError s.2 = true → ∃ failure, result = .error failure

/-- A participant that has forgotten its last failure. -/
def Forgot (s : Participant × List Effect) : Prop :=
  endedInError s.2 = true ∧ (s.1.phase = .returned (.ok ()) ∨ s.1.phase = .panicked)

variable {p p' : Participant} {s t : Participant × List Effect} {i : World × ParticipantAct}
  {log : List Effect}

theorem endedInError_connected : endedInError (log ++ countConnected) = false :=
  endedInError_append_cons rfl (by simp [Effect.endedInError?])

theorem endedInError_opened (sample : ConnectionSample) :
    endedInError (log ++ recordConnected participant sample) = endedInError log := by
  apply endedInError_append
  cases sample <;> simp [recordConnected, recordSample, Effect.endedInError?]

theorem endedInError_connectFailed (error : ConnectError) :
    endedInError (log ++ recordConnectFailed config error) = true := by
  rw [recordConnectFailed, List.cons_append]
  refine endedInError_append_cons rfl ?_
  split <;> split <;> simp [Effect.endedInError?]

theorem endedInError_sessionOver_ok :
    endedInError (log ++ recordSessionOver participant config w p (.ok ())) =
      endedInError log :=
  endedInError_append (by simp [recordSessionOver, Effect.endedInError?])

theorem endedInError_sessionOver_error (failure : Failure) :
    endedInError (log ++ recordSessionOver participant config w p (.error failure)) = true := by
  simp only [recordSessionOver]
  rw [← List.append_assoc, List.cons_append]
  refine endedInError_append_cons rfl ?_
  split <;> split <;> simp [Effect.endedInError?]

theorem remembers_enter (hlog : endedInError log = false) :
    Remembers (enter participant config w, log) := by
  rw [enter]
  split
  · exact fun _ => ⟨_, rfl⟩
  · exact hlog

theorem remembers_afterSession {failure : Failure} (hlog : endedInError log = true) :
    Remembers (p.goto (afterSession config w (.error failure)), log) := by
  simp only [afterSession]
  split
  · exact fun _ => ⟨failure, rfl⟩
  · exact hlog

/-- A backoff keeps the failure, unless it overflows. -/
theorem remembers_retry {failure : Failure} {factor : ℚ} (hlog : endedInError log = true)
    (hstop : w.stop = false) :
    if forgets config w p (.retry factor) then Forgot (p.retry config w failure factor, log)
    else Remembers (p.retry config w failure factor, log) := by
  rw [retry, forgets]
  by_cases hattempts : config.reconnect.maxAttempts.toNat ≤ p.attempt
  · rw [if_pos hattempts, decide_eq_false (Nat.not_lt.mpr hattempts), Bool.false_and,
      if_neg Bool.false_ne_true]
    exact fun _ => ⟨_, rfl⟩
  · rw [if_neg hattempts, decide_eq_true (Nat.not_le.mp hattempts), Bool.true_and, backOff]
    cases reconnectDelay config (p.attempt + 1) factor with
    | none => exact ⟨hlog, .inr rfl⟩
    | some delay =>
      rw [Option.isNone_some, if_neg Bool.false_ne_true]
      simp only
      cases enterDelay w config.run.duration delay with
      | none =>
        simp only [cutBackoff, hstop]
        exact fun _ => ⟨failure, rfl⟩
      | some endsAt => exact ⟨hlog, Nat.succ_pos _⟩

/-- The deadline at the head of the loop and during a dial: a failure before it is forgotten. -/
theorem remembers_deadline (hended : endedInError log = decide (0 < p.attempt))
    (hdeadline : config.run.duration ≤ w.now) :
    if decide (0 < p.attempt) && decide (config.run.duration ≤ w.now) then
      Forgot (p.goto (.returned (.ok ())), log)
    else Remembers (p.goto (.returned (.ok ())), log) := by
  rw [decide_eq_true hdeadline, Bool.and_true, ← hended]
  split
  · next hfailed => exact ⟨hfailed, .inl rfl⟩
  · next hfailed => exact fun hfailed' => absurd hfailed' hfailed

/-- **A step remembers the last failure, or forgets it.** -/
theorem remembers_step (hs : Remembers s) (hstop : i.1.stop = false)
    (h : (component P participant config).logged.step s i = some t) :
    if forgets config i.1 s.1 i.2 then Forgot t else Remembers t := by
  obtain ⟨p, log⟩ := s
  obtain ⟨w, act⟩ := i
  obtain ⟨p', log'⟩ := t
  obtain ⟨out, hstep, hlog⟩ := Component.logged_step.mp h
  simp only at hstep hlog hstop ⊢
  subst hlog
  unfold Remembers at hs
  cases steps_of_step hstep with
  | startOver _ hphase | rampCut _ hphase =>
    -- no dial was made, and nothing ended in an error
    simp only [hphase] at hs
    rw [List.append_nil]
    exact fun hended => absurd hended (by simp [hs.2])
  | ramp delay endsAt hphase =>
    simp only [hphase] at hs
    rw [List.append_nil]
    exact hs
  | enter endsAt hphase =>
    simp only [hphase] at hs
    rw [List.append_nil]
    exact remembers_enter hs.2
  | redial endsAt failure hphase =>
    simp only [hphase] at hs
    rw [List.append_nil]
    exact hs.1.trans (decide_eq_true hs.2).symm
  | backoffCut endsAt failure hphase =>
    -- not stopped, so the deadline cuts the backoff and the failure is returned
    rw [List.append_nil, cutBackoff, hstop]
    exact fun _ => ⟨failure, rfl⟩
  | leave hphase hover =>
    simp only [hphase] at hs
    rw [List.append_nil]
    exact remembers_deadline hs (hover.resolve_left (by simp [hstop]))
  | dial hphase _ hnow =>
    simp only [hphase] at hs
    rw [forgets, decide_eq_false (Nat.not_le.mpr hnow), Bool.and_false, if_neg Bool.false_ne_true]
    exact (endedInError_append (by simp [Effect.endedInError?])).trans hs
  | connect handshakeTime => exact endedInError_connected
  | reconnect elapsed hphase =>
    simp only [hphase] at hs
    exact (endedInError_append (by simp [Effect.endedInError?])).trans hs
  | openRequired sample hphase | openSession sample hphase =>
    simp only [hphase] at hs
    exact (endedInError_opened sample).trans hs
  | connectRetried error source hphase => exact endedInError_connectFailed error
  | connectFails error source hphase => exact fun _ => ⟨_, rfl⟩
  | dialStopped hphase hstopped =>
    rw [hstop] at hstopped
    cases hstopped
  | dialDeadline hphase hdeadline =>
    simp only [hphase] at hs
    rw [List.append_nil]
    exact remembers_deadline hs hdeadline
  | marked hphase | notified hphase =>
    simp only [hphase] at hs
    exact (endedInError_append (by simp [Effect.endedInError?])).trans hs
  | session session session' a out hphase hsession =>
    simp only [hphase] at hs
    have hsame : endedInError (log ++ out) = endedInError log :=
      endedInError_append fun e he => (Session.step_ofSession hsession e he).endedInError?
    exact hsame.trans hs
  | sessionOver result hphase =>
    simp only [hphase] at hs
    cases result with
    | ok _ =>
      intro hfailed
      rw [endedInError_sessionOver_ok, hs] at hfailed
      cases hfailed
    | error failure => exact remembers_afterSession (endedInError_sessionOver_error failure)
  | retry factor failure hphase =>
    simp only [hphase] at hs
    rw [List.append_nil]
    exact remembers_retry hs hstop

/-- A participant that is done makes no step. -/
theorem forgot_step (hs : Forgot s) :
    (component P participant config).logged.step s i = none := by
  have hnone : (component P participant config).step i.1 s.1 i.2 = none :=
    step_eq_none (hs.2.imp_left fun hphase => ⟨_, hphase⟩)
  simp only [Component.logged, hnone, Option.map_none]

theorem Forgot.result_ne {failure : Failure} (hs : Forgot s) :
    s.1.result? ≠ some (some (.error failure)) := by
  obtain ⟨⟨phase, attempt, recoveryStarted⟩, log⟩ := s
  obtain ⟨-, hphase⟩ := hs
  simp only at hphase
  rcases hphase with rfl | rfl <;> simp [result?]

/-- A participant that remembers its last failure fails with it. -/
theorem fails_of_remembers {result : Option (Except Failure Unit)} (hs : Remembers s)
    (hdone : s.1.result? = some result) (hfailed : endedInError s.2 = true) :
    ∃ failure, result = some (.error failure) := by
  obtain ⟨⟨phase, attempt, recoveryStarted⟩, log⟩ := s
  cases phase with
  | returned outcome =>
    obtain rfl := Option.some.inj hdone
    obtain ⟨failure, rfl⟩ := hs hfailed
    exact ⟨failure, rfl⟩
  | panicked => exact absurd hfailed (by simp [show endedInError log = false from hs])
  | connected session => exact absurd hfailed (by simp [show endedInError log = false from hs])
  | _ => cases hdone

/-- **The last failure survives** exactly when no step forgets it: the deadline is never seen at
the head of the loop or during a dial that follows a failure, and no backoff overflows. -/
theorem last_failure_iff {delay : Duration} {inputs : List (World × ParticipantAct)}
    {p : Participant} {log : List Effect} {result : Option (Except Failure Unit)}
    (hstop : ∀ i ∈ inputs, i.1.stop = false)
    (h : (component P participant config).logged.exec (spawn delay, []) inputs = some (p, log))
    (hdone : p.result? = some result) :
    (endedInError log = true → ∃ failure, result = some (.error failure)) ↔
      (component P participant config).logged.Along
        (fun s i => forgets config i.1 s.1 i.2 = false) (spawn delay, []) inputs := by
  have hspawn : Remembers (spawn delay, []) := ⟨rfl, rfl⟩
  have hkeep : ∀ s i t, Remembers s → (i.1.stop = false ∧ forgets config i.1 s.1 i.2 = false) →
      (component P participant config).logged.step s i = some t → Remembers t := by
    intro s i t hs hi hstep
    have hnext := remembers_step hs hi.1 hstep
    rwa [hi.2, if_neg Bool.false_ne_true] at hnext
  constructor
  · intro hsurvives
    by_contra halong
    obtain ⟨before, i, after, u, v, rfl, hbefore, hkept, hforgets, hstep, hafter⟩ :=
      Machine.exists_violation halong h
    have hu : Remembers u := Machine.exec_invariant_along hkeep
      ((Machine.along_of_forall fun _ j hj => hstop j (by simp [hj])).and hkept) hspawn hbefore
    have hv := remembers_step hu (hstop i (by simp)) hstep
    rw [if_pos (Bool.not_eq_false _ ▸ hforgets)] at hv
    -- a participant that is done ends the run
    cases after with
    | nil =>
      obtain rfl := Option.some.inj hafter
      obtain ⟨failure, rfl⟩ := hsurvives hv.1
      exact hv.result_ne hdone
    | cons j after =>
      obtain ⟨x, hx, -⟩ := Machine.exec_cons.mp hafter
      rw [forgot_step hv] at hx
      cases hx
  · intro halong
    have hend : Remembers (p, log) := Machine.exec_invariant_along hkeep
      ((Machine.along_of_forall fun _ => hstop).and halong) hspawn h
    exact fails_of_remembers hend hdone

/-! ## A dial at the deadline -/

namespace Unreachable

def peer : ParticipantConfig := { id := "peer" }

/-- A run of five seconds that dials again. -/
def brief : AppConfig where
  authorization := { acknowledged := true }
  participants := [peer]
  run := { duration := Duration.fromSecs 5 }
  reconnect := { enabled := true, jitterPercent := 0 }

/-- The world at a millisecond. -/
def world (millis : ℕ) : World := { World.initial false with now := Duration.fromMillis millis }

/-- A dial that is refused. -/
def refused (millis : ℕ) : List (World × ParticipantAct) :=
  [(world millis, .enterLoop), (world millis, .connectFailed .tcp []), (world millis, .retry 1)]

/-- The second dial is in progress at the deadline. -/
def dialing : List (World × ParticipantAct) :=
  (world 0, .start) :: (world 0, .delayOver) :: refused 0 ++
    [(world 250, .delayOver), (world 250, .enterLoop), (world 5000, .dialDeadline)]

/-- The backoff is in progress at the deadline. -/
def backingOff : List (World × ParticipantAct) :=
  (world 0, .start) :: (world 0, .delayOver) :: refused 4900 ++ [(world 5000, .delayCut)]

/-- How a run ends, and whether the last connect failed. -/
def ending (inputs : List (World × ParticipantAct)) :
    Option (Option (Option (Except Failure Unit)) × Bool) :=
  ((component Reference.platform peer brief).logged.exec (spawn 0, []) inputs).map
    fun t => (t.1.result?, endedInError t.2)

theorem exists_of_ending {inputs : List (World × ParticipantAct)}
    {result : Option (Except Failure Unit)} {failed : Bool}
    (h : ending inputs = some (some result, failed)) :
    ∃ p log, (component Reference.platform peer brief).logged.exec (spawn 0, []) inputs =
      some (p, log) ∧ p.result? = some result ∧ endedInError log = failed := by
  obtain ⟨⟨p, log⟩, hexec, hend⟩ := Option.map_eq_some_iff.mp h
  obtain ⟨hresult, hfailed⟩ := Prod.mk.inj hend
  exact ⟨p, log, hexec, hresult, hfailed⟩

end Unreachable

/-- A backoff at the deadline forgets no failure. -/
theorem last_failure_iff_backingOff :
    (component Reference.platform Unreachable.peer Unreachable.brief).logged.Along
      (fun s i => forgets Unreachable.brief i.1 s.1 i.2 = false) (spawn 0, [])
      Unreachable.backingOff := by
  obtain ⟨p, log, hexec, hresult, -⟩ := Unreachable.exists_of_ending
    (show Unreachable.ending Unreachable.backingOff =
      some (some (some (.error [.connect .tcp])), true) by decide +kernel)
  refine (last_failure_iff ?_ hexec hresult).mp fun _ => ⟨_, rfl⟩
  simp [Unreachable.backingOff, Unreachable.refused, Unreachable.world, World.initial]

/-- An accepted configuration whose participant ends well after a refused dial. -/
theorem last_failure_forgotten :
    validateWithOptions Unreachable.brief {} = .ok () ∧
      Unreachable.peer ∈ participants Unreachable.brief ∧
      Unreachable.brief.reconnect.enabled = true ∧
      ∃ inputs p log, (∀ i ∈ inputs, i.1.stop = false) ∧
        (component Reference.platform Unreachable.peer Unreachable.brief).logged.exec
          (spawn 0, []) inputs = some (p, log) ∧
        p.result? = some (some (.ok ())) ∧ endedInError log = true := by
  obtain ⟨p, log, hexec, hresult, hfailed⟩ := Unreachable.exists_of_ending
    (show Unreachable.ending Unreachable.dialing = some (some (some (.ok ())), true) by
      decide +kernel)
  refine ⟨by decide, by simp [participants, Unreachable.brief], rfl, Unreachable.dialing, p, log,
    ?_, hexec, hresult, hfailed⟩
  simp [Unreachable.dialing, Unreachable.refused, Unreachable.world, World.initial]

end Participant

end TakBench
