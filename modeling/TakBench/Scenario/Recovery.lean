import TakBench.Scenario.Dials

/-!
# The samples of the recovery time

A dial that succeeds after others have been made records a recovery. The time that is recorded runs
from the start of the participant's loop, and not from the failure that began the outage, and a
histogram takes no value over ten minutes.

## Main definitions

* `Dial.recoveries`: the recoveries recorded for a dial
* `Dial.Recovers`: the one recovery of a reconnect is the outage that it ends, and it is counted
* `Dial.EndsFirstOutage`: a reconnect ends an outage as old as the loop, within ten minutes

## Main results

* `Dialer.recoveries_iff`: the recoveries of a run are its outages exactly when each reconnect ends
  an outage as old as the loop, within ten minutes
-/

namespace TakBench

/-- The microseconds that `record_recovery` gives to its histogram. -/
def recordedMicros (elapsed : Duration) : ℕ := max (min (elapsed / 1000) (2 ^ 64 - 1)) 1

/-- Does a histogram take the value? Its upper bound is ten minutes. -/
def isCounted (elapsed : Duration) : Bool := recordedMicros elapsed ≤ 600000000

def Effect.recovery? : Effect → Option Duration
  | .record .recovery elapsed => some elapsed
  | _ => none

theorem Effect.IsSilent.recovery? {e : Effect} (h : e.IsSilent) : e.recovery? = none := by
  cases e with
  | record histogram elapsed =>
    cases histogram with
    | recovery => exact absurd rfl h
    | _ => rfl
  | _ => rfl

namespace Dial

/-- When the dial succeeded, if its samples are recorded. -/
def connectedAt (d : Dial) : Option Instant :=
  match d.result with
  | .connected time | .broken time _ => some time
  | .pending | .failed _ | .recovering _ => none

/-- When the dial succeeded. -/
def succeededAt (d : Dial) : Option Instant :=
  match d.result with
  | .recovering time | .connected time | .broken time _ => some time
  | .pending | .failed _ => none

theorem succeededAt_of_connectedAt {d : Dial} {time : Instant} (h : d.connectedAt = some time) :
    d.succeededAt = some time := by
  obtain ⟨number, outage, result, effects⟩ := d
  cases result with
  | connected | broken => exact h
  | _ => cases h

/-- The recoveries recorded for a dial. -/
def recoveries (d : Dial) : List Duration := d.effects.filterMap Effect.recovery?

/-- A reconnect records one recovery, the time since the failure that began the outage, and the
histogram takes it. -/
def Recovers (d : Dial) : Prop :=
  0 < d.number → ∀ time, d.connectedAt = some time →
    ∃ began, d.outage = some began ∧ d.recoveries = [time - began] ∧
      ∀ elapsed ∈ d.recoveries, isCounted elapsed = true

/-- A reconnect ends an outage that began at `started`, within ten minutes. -/
def EndsFirstOutage (started : Instant) (d : Dial) : Prop :=
  0 < d.number → ∀ time, d.connectedAt = some time →
    d.outage = some started ∧ isCounted (time - started) = true

/-- The times of a dial of a loop that was started at a time. -/
structure Timely (started now : Instant) (d : Dial) : Prop where
  outage : 0 < d.number → d.outage.isSome = true
  began : ∀ began, d.outage = some began → started ≤ began ∧ began ≤ now ∧
    ∀ time, d.succeededAt = some time → began ≤ time
  outageAfter : ∀ began, d.outageAfter = some began → started ≤ began ∧ began ≤ now
  recoveries : d.recoveries = d.connectedAt.toList.flatMap fun time =>
    if 0 < d.number then [time - started] else []

theorem Timely.mono {started now now' : Instant} {d : Dial} (h : d.Timely started now)
    (hle : now ≤ now') : d.Timely started now' where
  outage := h.outage
  began began hbegan := by
    obtain ⟨hstarted, hnow, hconnected⟩ := h.began began hbegan
    exact ⟨hstarted, hnow.trans hle, hconnected⟩
  outageAfter began hbegan := by
    obtain ⟨hstarted, hnow⟩ := h.outageAfter began hbegan
    exact ⟨hstarted, hnow.trans hle⟩
  recoveries := h.recoveries

/-- A dial that is not over has recorded no recovery. -/
theorem Timely.recoveries_eq_nil {started now : Instant} {d : Dial} (h : d.Timely started now)
    (hconnected : d.connectedAt = none) : d.effects.filterMap Effect.recovery? = [] := by
  have hrecoveries := h.recoveries
  rwa [hconnected] at hrecoveries

/-- What is recorded is the outage exactly when the outage is as old as the loop. -/
theorem Timely.recovers_iff {started now : Instant} {d : Dial} (h : d.Timely started now) :
    d.Recovers ↔ d.EndsFirstOutage started := by
  refine imp_congr_right fun hlater =>
    forall_congr' fun time => imp_congr_right fun hconnected => ?_
  have hrecoveries : d.recoveries = [time - started] := by
    rw [h.recoveries, hconnected]
    simp [hlater]
  obtain ⟨began, hbegan⟩ := Option.isSome_iff_exists.mp (h.outage hlater)
  obtain ⟨hstarted, -, hbefore⟩ := h.began began hbegan
  have hle : began ≤ time := hbefore time (succeededAt_of_connectedAt hconnected)
  rw [hrecoveries, hbegan]
  simp only [Option.some.injEq, List.cons.injEq, and_true, List.mem_singleton, forall_eq,
    exists_eq_left']
  exact and_congr_left fun _ => (tsub_right_inj (hstarted.trans hle) hle).trans eq_comm

end Dial

namespace Participant

variable (participant : ParticipantConfig) (config : AppConfig) (w : World) (p : Participant)

theorem recoveries_recordConnectFailed (error : ConnectError) :
    (recordConnectFailed config error).filterMap Effect.recovery? = [] := by
  rw [recordConnectFailed]
  split <;> split <;> rfl

theorem recoveries_recordSessionOver (failure : Failure) :
    (recordSessionOver participant config w p (.error failure)).filterMap Effect.recovery? =
      [] := by
  simp only [recordSessionOver]
  split <;> split <;> rfl

end Participant

namespace Dialer

variable {P : Platform} {participant : ParticipantConfig} {config : AppConfig} {t t' : Dialer}
  {out : List Effect}

/-- **A step of the participant** keeps the times of its dials. -/
theorem Goes.timely {dials : List Dial} (h : Goes participant config t out dials)
    (hsince : t.participant.recoveryStarted = t.started) (hclock : t.started ≤ t.now)
    (ht : ∀ d ∈ t.dials, d.Timely t.started t.now) :
    ∀ d ∈ dials, d.Timely t.started t.now := by
  cases h with
  | dial hfailed =>
    refine List.forall_mem_cons.mpr ⟨?_, ht⟩
    cases hdials : t.dials with
    | nil => exact ⟨by simp, by simp, by simp [Dial.outageAfter], rfl⟩
    | cons d earlier =>
      rw [hdials] at hfailed ht
      -- the outage of a dial is the one that goes on after the dial before it
      have hd := ht d List.mem_cons_self
      refine ⟨fun _ => hfailed d rfl, fun began hbegan => ?_, by simp [Dial.outageAfter], rfl⟩
      obtain ⟨hstarted, hnow⟩ := hd.outageAfter began hbegan
      exact ⟨hstarted, hnow, by simp [Dial.succeededAt]⟩
  | connect d earlier elapsed hdials hresult hfirst =>
    refine forall_mem_renew hdials ht fun hd => ⟨hd.outage, fun began hbegan => ?_, ?_, ?_⟩
    · obtain ⟨hstarted, hle, -⟩ := hd.began began hbegan
      refine ⟨hstarted, hle, fun time htime => ?_⟩
      obtain rfl := Option.some.inj htime
      exact hle
    · simp [Dial.outageAfter]
    · have hnone := hd.recoveries_eq_nil (by rw [Dial.connectedAt, hresult])
      rw [Dial.recoveries, List.filterMap_append, hnone]
      simp [Dial.connectedAt, hfirst, Participant.recordConnected, Participant.recordSample,
        Effect.recovery?]
  | reconnect d earlier elapsed hdials hresult hlater =>
    -- the outage is over, and its recovery is recorded later
    refine forall_mem_renew hdials ht fun hd => ⟨hd.outage, fun began hbegan => ?_, ?_, ?_⟩
    · obtain ⟨hstarted, hle, -⟩ := hd.began began hbegan
      refine ⟨hstarted, hle, fun time htime => ?_⟩
      obtain rfl := Option.some.inj htime
      exact hle
    · simp [Dial.outageAfter]
    · have hnone := hd.recoveries_eq_nil (by rw [Dial.connectedAt, hresult])
      rw [Dial.recoveries, List.filterMap_append, hnone]
      rfl
  | recover d earlier time elapsed hdials hresult hlater helapsed =>
    refine forall_mem_renew hdials ht fun hd => ⟨hd.outage, ?_, ?_, ?_⟩
    · simpa only [Dial.succeededAt, hresult] using hd.began
    · simp [Dial.outageAfter]
    · have hnone := hd.recoveries_eq_nil (by rw [Dial.connectedAt, hresult])
      rw [Dial.recoveries, List.filterMap_append, hnone, helapsed, hsince]
      simp [Dial.connectedAt, hlater, Participant.recordConnected, Participant.recordSample,
        Effect.recovery?]
  | fail d earlier error hdials hresult =>
    refine forall_mem_renew hdials ht fun hd =>
      ⟨hd.outage, fun began hbegan => ?_, fun began hbegan => ?_, ?_⟩
    · obtain ⟨hstarted, hle, -⟩ := hd.began began hbegan
      exact ⟨hstarted, hle, by simp [Dial.succeededAt]⟩
    · -- the first failure of an outage begins it
      obtain rfl := Option.some.inj hbegan
      cases houtage : d.outage with
      | none => exact ⟨hclock, Nat.le_refl _⟩
      | some began =>
        obtain ⟨hstarted, hle, -⟩ := hd.began began houtage
        exact ⟨hstarted, hle⟩
    · have hnone := hd.recoveries_eq_nil (by rw [Dial.connectedAt, hresult])
      simp [Dial.recoveries, hnone, Participant.recoveries_recordConnectFailed, Dial.connectedAt]
  | disconnect d earlier time w failure hdials hresult hattempt =>
    refine forall_mem_renew hdials ht fun hd => ⟨hd.outage, ?_, fun began hbegan => ?_, ?_⟩
    · simpa only [Dial.succeededAt, hresult] using hd.began
    · -- the end of the session begins an outage of its own
      obtain rfl := Option.some.inj hbegan
      exact ⟨hclock, Nat.le_refl _⟩
    · have hrecoveries := hd.recoveries
      simp only [Dial.recoveries, Dial.connectedAt, hresult] at hrecoveries ⊢
      rw [List.filterMap_append, Participant.recoveries_recordSessionOver, List.append_nil]
      exact hrecoveries
  | go d earlier out hdials hsilent =>
    refine forall_mem_renew hdials ht fun hd => ⟨hd.outage, hd.began, hd.outageAfter, ?_⟩
    have hnone : out.filterMap Effect.recovery? = [] :=
      List.filterMap_eq_nil_iff.mpr fun e he => (hsilent e he).recovery?
    simp only [Dial.recoveries, List.filterMap_append, hnone, List.append_nil]
    exact hd.recoveries
  | pass => exact ht

/-- The start of the loop, as the participant and its dials know it. -/
structure Timed (t : Dialer) : Prop where
  stands : Stands t.participant t.dials
  since : t.participant.recoveryStarted = t.started
  clock : t.started ≤ t.now
  timely : ∀ d ∈ t.dials, d.Timely t.started t.now

/-- Only a participant that enters its loop sets its start, and the start of its recovery. -/
theorem started_step {w : World} {act : ParticipantAct} {p : Participant}
    (hnow : w.now = t.now) (ht : t.Timed)
    (h : t.participant.step P participant config w act = some (p, out)) :
    p.recoveryStarted = t.startedAfter act ∧ t.startedAfter act ≤ t.now ∧
      (t.startedAfter act = t.started ∨ t.dialsAfter p out act = []) := by
  have hstands := ht.stands
  cases Participant.steps_of_step h with
  | enter endsAt hphase =>
    rw [Stands, hphase] at hstands
    -- no dial is made before the loop is entered
    have hstarted : t.startedAfter .delayOver = t.now := by simp only [startedAfter, hphase]
    have hdialing : (Participant.enter participant config w).isDialing = false :=
      isDialing_of_isBetween Participant.isBetween_enter
    rw [hstarted, dialsAfter_nil hdialing fun _ => rfl]
    refine ⟨?_, Nat.le_refl _, .inr hstands.1⟩
    rw [Participant.enter]
    split <;> exact hnow
  | redial endsAt failure hphase =>
    have hstarted : t.startedAfter .delayOver = t.started := by simp only [startedAfter, hphase]
    rw [hstarted]
    exact ⟨ht.since, ht.clock, .inl rfl⟩
  | retry factor failure hphase =>
    refine ⟨?_, ht.clock, .inl rfl⟩
    rw [Participant.retry]
    split <;> exact ht.since
  | _ => exact ⟨ht.since, ht.clock, .inl rfl⟩

theorem timed_step {a : DialerAct} (ht : t.Timed)
    (h : (machine P participant config).step t a = some t') : t'.Timed := by
  rcases exists_of_step h with ⟨duration, rfl⟩ | ⟨w, act, p, out, hnow, hstep, rfl⟩
  · have hle : t.now ≤ t.now + duration := Nat.le_add_right _ _
    exact ⟨ht.stands, ht.since, ht.clock.trans hle, fun d hd => (ht.timely d hd).mono hle⟩
  · obtain ⟨hgoes, hstands⟩ := goes_of_step ht.stands hnow hstep
    obtain ⟨hsince, hclock, hstarted⟩ := started_step hnow ht hstep
    refine ⟨hstands, hsince, hclock, ?_⟩
    rcases hstarted with hstarted | hdials
    · simp only [hstarted]
      exact hgoes.timely ht.since ht.clock ht.timely
    · simp [hdials]

/-- **The recoveries of a run are its outages** exactly when each reconnect ends an outage as old
as the loop of the participant, within ten minutes. -/
theorem recoveries_iff {delay : Duration} {acts : List DialerAct}
    (h : (machine P participant config).exec (spawn delay) acts = some t) :
    (∀ d ∈ t.dials, d.Recovers) ↔ ∀ d ∈ t.dials, d.EndsFirstOutage t.started := by
  have hspawn : (spawn delay).Timed := ⟨⟨rfl, rfl⟩, rfl, Nat.le_refl 0, by simp [spawn]⟩
  have htimed := Machine.exec_invariant (fun _ _ _ => timed_step) hspawn h
  exact forall₂_congr fun d hd => (htimed.timely d hd).recovers_iff

/-! ## An outage after a session -/

namespace Flaky

/-- A dial that is refused at once, and one that succeeds after the backoff. -/
def refused : List DialerAct :=
  [act .start, act .delayOver, act .enterLoop, act (.connectFailed .tcp []), act (.retry 1),
    .elapse (Duration.fromMillis 250), act .delayOver] ++ connecting 2

/-- A session of ten seconds that the peer closes, and a dial that succeeds after the backoff. -/
def closed : List DialerAct :=
  [act .start, act .delayOver] ++ connecting 1 ++ .elapse (Duration.fromSecs 10) :: closing ++
    [act (.retry 1), .elapse (Duration.fromMillis 250), act .delayOver] ++ connecting 2

/-- The outage that a dial is to end, and the recoveries recorded for it. -/
structure Sample where
  number : ℕ
  outage : Option Instant
  connectedAt : Option Instant
  recoveries : List Duration
  deriving DecidableEq

def sample (d : Dial) : Sample := ⟨d.number, d.outage, d.connectedAt, d.recoveries⟩

/-- The start of a run, and the samples of its dials. -/
def recovering (acts : List DialerAct) : Option (Instant × List Sample) :=
  ((machine Reference.platform peer patient).exec (spawn 0) acts).map fun t =>
    (t.started, t.dials.map sample)

end Flaky

/-- A reconnect after a dial that was refused at once. -/
theorem recoveries_iff_refused :
    ∃ t, (machine Reference.platform Flaky.peer Flaky.patient).exec (spawn 0) Flaky.refused =
        some t ∧ t.dials.length = 2 ∧ ∀ d ∈ t.dials, d.Recovers := by
  have hexec : Flaky.recovering Flaky.refused =
      some (0, [⟨1, some 0, some 250000000, [250000000]⟩, ⟨0, none, none, []⟩]) := by
    decide +kernel
  obtain ⟨t, hexec, ht⟩ := Option.map_eq_some_iff.mp hexec
  obtain ⟨hstarted, hdials⟩ := Prod.mk.inj ht
  have hlength := congrArg List.length hdials
  rw [List.length_map] at hlength
  refine ⟨t, hexec, hlength, (recoveries_iff hexec).mpr ?_⟩
  intro d hd hlater time hconnected
  have hmem : Flaky.sample d ∈ t.dials.map Flaky.sample := List.mem_map_of_mem hd
  simp only [hdials, Flaky.sample, List.mem_cons, Flaky.Sample.mk.injEq, List.not_mem_nil,
    or_false] at hmem
  rcases hmem with ⟨-, houtage, hconnected', -⟩ | ⟨hnumber, -⟩
  · rw [hconnected] at hconnected'
    obtain rfl := Option.some.inj hconnected'
    rw [houtage, hstarted]
    exact ⟨rfl, by decide⟩
  · omega

/-- A reconnect after a session of ten seconds: the recovery that is recorded has the session in
it. -/
theorem recovery_overstated :
    ∃ t, (machine Reference.platform Flaky.peer Flaky.patient).exec (spawn 0) Flaky.closed =
        some t ∧ ∃ d ∈ t.dials, 0 < d.number ∧ d.outage = some 10000000000 ∧
          d.connectedAt = some 10250000000 ∧ d.recoveries = [10250000000] ∧ ¬ d.Recovers := by
  have hexec : Flaky.recovering Flaky.closed =
      some (0, [⟨1, some 10000000000, some 10250000000, [10250000000]⟩,
        ⟨0, none, some 0, []⟩]) := by
    decide +kernel
  obtain ⟨t, hexec, ht⟩ := Option.map_eq_some_iff.mp hexec
  obtain ⟨-, hdials⟩ := Prod.mk.inj ht
  obtain ⟨d, hd, hvalues⟩ := List.mem_map.mp (hdials ▸ List.mem_cons_self)
  simp only [Flaky.sample, Flaky.Sample.mk.injEq] at hvalues
  obtain ⟨hnumber, houtage, hconnected, hrecoveries⟩ := hvalues
  refine ⟨t, hexec, d, hd, by omega, houtage, hconnected, hrecoveries, fun hrecovers => ?_⟩
  obtain ⟨began, hbegan, helapsed, -⟩ := hrecovers (by omega) _ hconnected
  rw [houtage] at hbegan
  obtain rfl := Option.some.inj hbegan
  rw [hrecoveries] at helapsed
  exact absurd helapsed (by decide)

end Dialer

end TakBench
