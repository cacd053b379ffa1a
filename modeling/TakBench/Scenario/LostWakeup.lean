import TakBench.Library.Machine
import TakBench.Scenario.Barrier

/-!
# A waiter of the barrier and those who mark themselves ready

`mark_ready` inserts a participant under the lock and then notifies those who wait. A waiter that
has seen an incomplete set is notified only if it has registered by then, and when a notification
and the deadline are both there, it may take the deadline. So a waiter may report a timeout when
everybody is ready. It does so in three schedules: the call that completes the set has notified
before the waiter registered, or after it, or not yet.

## Main definitions

* `Marking`: a call of `mark_ready` between its insert and its notification
* `Waiting`, `Waiting.machine`: a waiter among any number of calls of `mark_ready`
* `Waiting.Truthful`: a timeout is reported only when somebody is missing
* `Waiting.Harmless`: the schedules in which it is

## Main results

* `Waiting.observed_step`: the call that completes the set is in one of three places
* `Waiting.truthful_iff`: the reports of a run are true exactly when its schedule is harmless
* `Waiting.timeout_lost`: a notification that comes between the check and the registration
-/

namespace TakBench

variable (config : AppConfig)

/-- A call of `mark_ready` that has inserted. -/
structure Marking where
  participant : String
  /-- was the set complete after the insert, and not before? -/
  completes : Bool
  deriving DecidableEq

/-- A waiter of the barrier, with the calls of `mark_ready` around it. -/
structure Waiting where
  world : World
  phase : BarrierPhase
  /-- calls that have inserted, and not yet notified -/
  marking : List Marking
  /-- calls that have notified between the last check of the waiter and its registration -/
  missed : List Marking
  /-- calls that have notified since the waiter has registered -/
  woken : List Marking

/-- What happens at a barrier. -/
inductive WaitingAct where
  | wait (act : BarrierAct)
  /-- a call of `mark_ready` takes the lock -/
  | insert (participant : String)
  /-- a call of `mark_ready` notifies -/
  | notify (call : Marking)
  | elapse (duration : Duration)
  | stop

namespace Waiting

/-- A call of `ReadinessBarrier::wait`. -/
def start (w : World) : Waiting := ⟨w, .checking, [], [], []⟩

/-- The waiter has made a step; a check forgets the calls that have notified before. -/
def goto (t : Waiting) (phase : BarrierPhase) : BarrierAct → Waiting
  | .check => { t with phase, missed := [], woken := [] }
  | _ => { t with phase }

/-- A call of `mark_ready` inserts its participant. -/
def insert (t : Waiting) (participant : String) : Waiting :=
  let world := t.world.apply (.markReady participant)
  let completes := !isReady config t.world.ready && isReady config world.ready
  { t with world, marking := ⟨participant, completes⟩ :: t.marking }

/-- A call of `mark_ready` notifies, whether the waiter has registered or not. -/
def notify (t : Waiting) (call : Marking) : Waiting :=
  let world := t.world.apply .notifyWaiters
  let marking := t.marking.erase call
  match t.phase with
  | .unarmed => { t with world, marking, missed := call :: t.missed }
  | .armed _ => { t with world, marking, woken := call :: t.woken }
  | _ => { t with world, marking }

/-- A waiter, the calls of `mark_ready` and the clock, in any order. -/
def machine : Machine Waiting WaitingAct where
  step t
    | .wait act => (t.phase.step config t.world act).map fun phase => t.goto phase act
    | .insert participant =>
      if participant ∈ config.synchronization.waitForReady then some (t.insert config participant)
      else some t
    | .notify call => if call ∈ t.marking then some (t.notify call) else none
    | .elapse duration => some { t with world := { t.world with now := t.world.now + duration } }
    | .stop => some { t with world := { t.world with stop := true } }

/-- The waiter returns `TimedOut`. -/
def TimesOut (t : Waiting) (a : WaitingAct) : Prop :=
  t.phase ≠ .returned .timedOut ∧
    ∃ t', (machine config).step t a = some t' ∧ t'.phase = .returned .timedOut

/-- `TimedOut` is returned only when a required participant is not ready. -/
def Truthful (t : Waiting) (a : WaitingAct) : Prop :=
  TimesOut config t a →
    ∃ participant ∈ config.synchronization.waitForReady, participant ∉ t.world.ready

/-- Where the call that completes the set may not be when the waiter takes the deadline. -/
structure Unraced (t : Waiting) : Prop where
  /-- it has not inserted and notified between the check and the registration -/
  missed : ∀ call ∈ t.missed, call.completes = false
  /-- it is not still to notify -/
  marking : ∀ call ∈ t.marking, call.completes = false
  /-- it has not notified the waiter that has registered -/
  woken : ∀ call ∈ t.woken, call.completes = false

/-- The waiter takes the deadline branch of its `select!`. -/
def TakesDeadline (t : Waiting) (a : WaitingAct) : Prop :=
  a = .wait .deadline ∧ (∃ seen, t.phase = .armed seen) ∧ barrierDeadline config ≤ t.world.now

/-- A schedule is harmless if no deadline branch races with the call that completes the set. -/
def Harmless (t : Waiting) (a : WaitingAct) : Prop :=
  TakesDeadline config t a → t.Unraced

/-! ## Where the call that completes the set is -/

/-- The calls that have inserted, as far as the waiter has not checked since they have notified. -/
def calls (t : Waiting) : List Marking := t.marking ++ (t.missed ++ t.woken)

/-- Has the waiter checked, and not returned? -/
def HasChecked (t : Waiting) : Prop := t.phase = .unarmed ∨ ∃ seen, t.phase = .armed seen

/-- The set is complete after the call that completes it, and when it is complete behind the back of
the waiter, that call is still known. -/
structure Observed (t : Waiting) : Prop where
  ready : ∀ call ∈ t.calls, call.completes = true → isReady config t.world.ready = true
  completed : t.HasChecked → isReady config t.world.ready = true →
    ∃ call ∈ t.calls, call.completes = true

variable {config} {t t' : Waiting} {a : WaitingAct}

theorem unraced_iff : t.Unraced ↔ ∀ call ∈ t.calls, call.completes = false := by
  simp only [calls, List.forall_mem_append]
  exact ⟨fun h => ⟨h.marking, h.missed, h.woken⟩, fun h => ⟨h.2.1, h.1, h.2.2⟩⟩

/-- A waiter that has checked knows that somebody is missing, unless a call races with it. -/
theorem Observed.unraced_iff (ht : t.Observed config) (hchecked : t.HasChecked) :
    t.Unraced ↔ isReady config t.world.ready = false := by
  rw [Waiting.unraced_iff, ← Bool.not_eq_true]
  constructor
  · intro hcalls hready
    obtain ⟨call, hcall, hcompletes⟩ := ht.completed hchecked hready
    exact Bool.false_ne_true ((hcalls call hcall).symm.trans hcompletes)
  · intro hmissing call hcall
    by_contra hcompletes
    exact hmissing (ht.ready call hcall (Bool.eq_true_of_not_eq_false hcompletes))

theorem observed_insert (participant : String) (ht : t.Observed config) :
    (t.insert config participant).Observed config := by
  -- once complete, the set stays so
  have hgrows : isReady config t.world.ready = true →
      isReady config (t.world.apply (.markReady participant)).ready = true :=
    isReady_mono fun _ => List.mem_insert_of_mem
  constructor
  · intro call hcall hcompletes
    rcases List.mem_cons.mp hcall with rfl | hcall
    · exact (Bool.and_eq_true_iff.mp hcompletes).2
    · exact hgrows (ht.ready call hcall hcompletes)
  · intro hchecked hready
    by_cases hbefore : isReady config t.world.ready = true
    · obtain ⟨call, hcall, hcompletes⟩ := ht.completed hchecked hbefore
      exact ⟨call, List.mem_cons_of_mem _ hcall, hcompletes⟩
    -- this is the call that completes the set
    · refine ⟨_, List.mem_cons_self, ?_⟩
      change isReady config (t.world.apply (.markReady participant)).ready = true at hready
      rw [Bool.eq_false_of_not_eq_true hbefore, hready]
      rfl

/-- A call that notifies stays known to a waiter that has checked. -/
theorem mem_calls_notify {call other : Marking} (hcall : call ∈ t.marking)
    (hchecked : t.HasChecked) : other ∈ (t.notify call).calls ↔ other ∈ t.calls := by
  have herase : other ∈ t.marking ↔ other = call ∨ other ∈ t.marking.erase call := by
    by_cases hother : other = call
    · simp [hother, hcall]
    · simp [hother, List.mem_erase_of_ne]
  rcases hchecked with hphase | ⟨seen, hphase⟩
  · simp only [notify, calls, hphase, List.mem_append, List.mem_cons, herase]
    tauto
  · simp only [notify, calls, hphase, List.mem_append, List.mem_cons, herase]
    tauto

theorem mem_calls_of_mem_notify {call other : Marking} (hcall : call ∈ t.marking)
    (hother : other ∈ (t.notify call).calls) : other ∈ t.calls := by
  by_cases hchecked : t.HasChecked
  · exact (mem_calls_notify hcall hchecked).mp hother
  · have hmarking : other ∈ t.marking.erase call → other ∈ t.marking := List.mem_of_mem_erase
    cases hphase : t.phase with
    | unarmed => exact absurd (.inl hphase) hchecked
    | armed seen => exact absurd (.inr ⟨seen, hphase⟩) hchecked
    | checking | returned =>
      simp only [notify, calls, hphase, List.mem_append] at hother ⊢
      tauto

theorem phase_notify {call : Marking} : (t.notify call).phase = t.phase := by
  rw [notify]
  split <;> rfl

theorem ready_notify {call : Marking} : (t.notify call).world.ready = t.world.ready := by
  rw [notify]
  split <;> rfl

theorem observed_notify {call : Marking} (hcall : call ∈ t.marking) (ht : t.Observed config) :
    (t.notify call).Observed config := by
  constructor
  · intro other hother hcompletes
    rw [ready_notify]
    exact ht.ready other (mem_calls_of_mem_notify hcall hother) hcompletes
  · intro hchecked hready
    have hbefore : t.HasChecked := by rwa [HasChecked, phase_notify] at hchecked
    rw [ready_notify] at hready
    obtain ⟨other, hother, hcompletes⟩ := ht.completed hbefore hready
    exact ⟨other, (mem_calls_notify hcall hbefore).mpr hother, hcompletes⟩

/-- A check that fails has seen who is missing, and the other steps of a waiter that goes on leave
the calls as they are. -/
theorem observed_wait {act : BarrierAct} {phase : BarrierPhase} (ht : t.Observed config)
    (h : t.phase.step config t.world act = some phase) : (t.goto phase act).Observed config := by
  cases act with
  | check =>
    constructor
    · intro call hcall hcompletes
      have hmarking : call ∈ t.marking := by simpa [goto, calls] using hcall
      exact ht.ready call (List.mem_append_left _ hmarking) hcompletes
    · intro hchecked hready
      change isReady config t.world.ready = true at hready
      cases hold : t.phase with
      | checking =>
        simp only [hold, BarrierPhase.step, hready, if_true, Option.some.injEq] at h
        subst h
        rcases hchecked with hphase | ⟨seen, hphase⟩ <;> cases hphase
      | _ => simp [hold, BarrierPhase.step] at h
  | arm =>
    cases hold : t.phase with
    | unarmed => exact ⟨ht.ready, fun _ => ht.completed (.inl hold)⟩
    | _ => simp [hold, BarrierPhase.step] at h
  | notified | stopped | deadline =>
    -- the waiter looks again, or returns
    refine ⟨ht.ready, fun hchecked => ?_⟩
    cases hold : t.phase with
    | armed seen =>
      simp only [hold, BarrierPhase.step, Option.ite_none_right_eq_some, Option.some.injEq] at h
      obtain ⟨-, rfl⟩ := h
      rcases hchecked with hphase | ⟨seen, hphase⟩ <;> cases hphase
    | _ => simp [hold, BarrierPhase.step] at h

/-- **The call that completes the set** behind the back of a waiter has notified before the waiter
registered, or after it, or is still to notify. -/
theorem observed_step (ht : t.Observed config) (h : (machine config).step t a = some t') :
    t'.Observed config := by
  cases a with
  | wait act =>
    obtain ⟨phase, hstep, rfl⟩ := Option.map_eq_some_iff.mp h
    exact observed_wait ht hstep
  | insert participant =>
    simp only [machine] at h
    split at h
    · exact Option.some.inj h ▸ observed_insert participant ht
    · exact Option.some.inj h ▸ ht
  | notify call =>
    simp only [machine, Option.ite_none_right_eq_some, Option.some.injEq] at h
    obtain ⟨hcall, rfl⟩ := h
    exact observed_notify hcall ht
  | elapse duration =>
    obtain rfl := Option.some.inj h
    exact ⟨ht.ready, ht.completed⟩
  | stop =>
    obtain rfl := Option.some.inj h
    exact ⟨ht.ready, ht.completed⟩

theorem observed_start (w : World) : (start w).Observed config := by
  constructor
  · intro call hcall
    cases hcall
  · rintro (hphase | ⟨seen, hphase⟩) <;> cases hphase

/-! ## True reports -/

theorem phase_goto {phase : BarrierPhase} {act : BarrierAct} :
    (t.goto phase act).phase = phase := by
  cases act <;> rfl

/-- Only a step of the waiter changes its phase. -/
theorem phase_step (h : (machine config).step t a = some t') :
    (∃ act, a = .wait act ∧ t.phase.step config t.world act = some t'.phase) ∨
      t'.phase = t.phase := by
  cases a with
  | wait act =>
    obtain ⟨phase, hwait, rfl⟩ := Option.map_eq_some_iff.mp h
    rw [phase_goto]
    exact .inl ⟨act, rfl, hwait⟩
  | insert participant =>
    simp only [machine] at h
    split at h
    · obtain rfl := Option.some.inj h
      exact .inr rfl
    · obtain rfl := Option.some.inj h
      exact .inr rfl
  | notify call =>
    simp only [machine, Option.ite_none_right_eq_some, Option.some.injEq] at h
    obtain ⟨-, rfl⟩ := h
    exact .inr phase_notify
  | elapse | stop =>
    obtain rfl := Option.some.inj h
    exact .inr rfl

/-- A waiter reports a timeout exactly when it takes the deadline branch. -/
theorem timesOut_iff : TimesOut config t a ↔ TakesDeadline config t a := by
  constructor
  · rintro ⟨hwaits, t', hstep, hphase⟩
    rcases phase_step hstep with ⟨act, rfl, hwait⟩ | hsame
    · rw [hphase] at hwait
      obtain ⟨rfl, harmed, hdue⟩ := BarrierPhase.step_timedOut hwait
      exact ⟨rfl, harmed, hdue⟩
    · exact absurd (hsame ▸ hphase) hwaits
  · rintro ⟨rfl, ⟨seen, hphase⟩, hdue⟩
    refine ⟨by simp [hphase], t.goto (.returned .timedOut) .deadline, ?_, rfl⟩
    simp only [machine, hphase, BarrierPhase.step, if_pos hdue, Option.map_some]

theorem truthful_step_iff (ht : t.Observed config) :
    Truthful config t a ↔ Harmless config t a := by
  rw [Truthful, Harmless, timesOut_iff]
  refine imp_congr_right fun hdeadline => ?_
  -- a waiter that takes the deadline has checked before
  rw [ht.unraced_iff (.inr hdeadline.2.1), ← Bool.not_eq_true, isReady_iff]
  simp only [not_forall, exists_prop]

/-- **A barrier tells the truth** in a run exactly when no deadline branch is taken while the call
that completes the set has notified too early, or not yet, or at the same time. -/
theorem truthful_iff (w : World) (acts : List WaitingAct) :
    (machine config).Along (Truthful config) (start w) acts ↔
      (machine config).Along (Harmless config) (start w) acts :=
  Machine.along_congr (fun _ _ _ => observed_step) (fun _ _ => truthful_step_iff)
    (observed_start w)

/-! ## A lost notification -/

/-- A run in which one participant is waited for. -/
def single : AppConfig where
  authorization := { acknowledged := true }
  participants := [{ id := "alice" }]
  synchronization := { waitForReady := ["alice"], timeout := some (Duration.fromSecs 10) }

/-- The participant is inserted and the notification sent before the waiter registers. -/
def losing : List WaitingAct :=
  [.wait .check, .insert "alice", .notify ⟨"alice", true⟩, .wait .arm,
    .elapse (Duration.fromSecs 10)]

/-- Nobody wakes the waiter, which reports a timeout ten seconds later, when nobody is missing. -/
theorem timeout_lost :
    ∃ t t', (machine single).exec (start (World.initial false)) losing = some t ∧
      (machine single).step t (.wait .deadline) = some t' ∧ t'.phase = .returned .timedOut ∧
      missing single t.world.ready = [] ∧
      ¬ (machine single).Along (Truthful single) (start (World.initial false))
        (losing ++ [.wait .deadline]) := by
  refine ⟨_, _, rfl, rfl, rfl, missing_eq_nil_iff.mpr rfl, fun halong => ?_⟩
  have htimeout := ((Machine.along_append (m := machine single) rfl).mp halong).2.1
  obtain ⟨participant, hrequired, hmissing⟩ := htimeout ⟨nofun, _, rfl, rfl⟩
  obtain rfl := List.mem_singleton.mp hrequired
  exact hmissing (List.mem_singleton_self _)

end Waiting

end TakBench
