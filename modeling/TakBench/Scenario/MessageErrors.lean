import TakBench.Scenario.Books
import TakBench.Scenario.Counters

/-!
# How often a failed event is counted

The message error rate adds the timeouts to the dropped events. A write that fails drops its
events, and one that times out counts the same events as timeouts, too. So its events are two
errors each, while events that are lost behind it are none. The errors of a sender are at most its
events that are not sent exactly when no write times out with more events in it than behind it.

## Main definitions

* `World.messageErrors`: what the message error rate has above the line
* `CountedOnce`: the errors of a log are at most its events that are not sent
* `Sender.Doubles`: a step that counts an event twice

## Main results

* `Sender.countedOnce_step`: the errors of one step
* `Sender.countedOnce_iff`: the runs of a sender
-/

namespace TakBench

variable {P : Platform} {participant : ParticipantConfig} {config : AppConfig}

/-- The numerator of the message error rate. -/
def World.messageErrors (w : World) : ℕ :=
  w.counters .messageTimeouts + w.counters .droppedMessages

/-- The message errors grow by at most the events that are made and not counted as sent. -/
def CountedOnce (log : List Effect) : Prop :=
  ∀ w : World, (w.applyAll log).messageErrors + total Effect.sent log ≤
    w.messageErrors + total Effect.generated log

/-! ## Counters and logs -/

/-- A session only adds to the counters. -/
theorem World.counters_applyAll_of_ofSession {w : World} {counter : Counter} {log : List Effect}
    (h : ∀ e ∈ log, e.OfSession) :
    (w.applyAll log).counters counter = w.counters counter + total (Effect.added counter) log := by
  have hnone : ∀ part, part <+: log → total (Effect.subtracted counter) part = 0 := by
    refine fun part hpart => total_eq_zero fun e he => ?_
    cases e with
    | sub other n => exact (h _ (hpart.subset he)).elim
    | _ => rfl
  have hcounters := @World.counters_applyAll w counter log
    fun before hbefore => (hnone before hbefore).trans_le (Nat.zero_le _)
  rwa [hnone log (List.prefix_refl log), Nat.add_zero] at hcounters

theorem Effect.added_droppedMessages : Effect.added .droppedMessages = Effect.dropped := by
  funext e
  cases e with
  | add counter n => cases counter <;> rfl
  | _ => rfl

theorem countedOnce_iff_total {log : List Effect} (h : ∀ e ∈ log, e.OfSession) :
    CountedOnce log ↔ total (Effect.added .messageTimeouts) log + total Effect.dropped log +
      total Effect.sent log ≤ total Effect.generated log := by
  simp only [CountedOnce, World.messageErrors, World.counters_applyAll_of_ofSession h,
    Effect.added_droppedMessages]
  constructor
  · intro hle
    have hworld := hle (World.initial false)
    simp only [World.initial] at hworld
    omega
  · intro hle w
    omega

namespace Sender

/-- Events in the write in progress. -/
def inWrite (s : Sender) : ℕ :=
  match s.phase with
  | .flushing _ _ => s.batch.events
  | .writingFrame _ => 1
  | _ => 0

/-- A write times out with more events in it than there are behind it. -/
def Doubles (s : Sender) (act : SenderAct) : Prop :=
  act = .write .timedOut ∧ s.behind < s.inWrite

/-! ## Timeouts of a continuation -/

/-- A continuation without a timeout. -/
def Timely (p : Sender × List Effect) : Prop :=
  total (Effect.added .messageTimeouts) p.2 = 0

variable {s s' : Sender} {w : World} {act : SenderAct} {out : List Effect}

theorem timely_recordLocalDrop (events : ℕ) :
    total (Effect.added .messageTimeouts) (recordLocalDrop events) = 0 := by
  simp [recordLocalDrop, Effect.added]

section Timely

variable (P participant config s)

theorem timely_leave : Timely s.leave := by
  rw [Timely, leave, dropBatch]
  split
  · exact timely_recordLocalDrop _
  · rfl

theorem timely_endTick : Timely (s.endTick config) := by
  rw [endTick]
  split
  · exact timely_leave s
  · rfl

theorem timely_flushOutcome (next : AfterFlush) {outcome : WriteOutcome}
    (h : outcome.isFailed = false) : Timely (s.flushOutcome next outcome) := by
  cases outcome with
  | pending write => rfl
  | done => simp [Timely, flushOutcome, Effect.added]
  | failed failure => cases h

theorem timely_frameOutcome {outcome : WriteOutcome} (h : outcome.isFailed = false) :
    Timely (s.frameOutcome config outcome) := by
  cases outcome with
  | pending write => rfl
  | done =>
    have hend := timely_endTick config s
    simpa [Timely, frameOutcome, Effect.added] using hend
  | failed failure => cases h

theorem timely_afterFlush (now : Instant) (next : AfterFlush) :
    Timely (s.afterFlush config now next) := by
  cases next with
  | batch => exact timely_endTick config s
  | frame bytes => exact timely_frameOutcome config s (Write.start_isFailed bytes now)

theorem timely_flush (now : Instant) (next : AfterFlush) : Timely (s.flush config now next) := by
  rw [flush]
  split
  · exact timely_afterFlush config s now next
  · exact timely_flushOutcome s next (Write.start_isFailed _ now)

theorem timely_append (now : Instant) : Timely (s.append config now) := by
  rw [append]
  split
  · exact timely_recordLocalDrop _
  · split
    · exact timely_flush config s now .batch
    · exact timely_endTick config s

theorem timely_dispatch (now : Instant) (utc : OffsetDateTime) (id : Uuid) :
    Timely (s.dispatch P participant config now utc id) := by
  rw [dispatch]
  split
  · exact timely_flush config _ now _
  · exact timely_append config _ now

end Timely

/-- The timeouts that a failed write counts. -/
theorem timeouts_recordWriteFailure (events : ℕ) (failure : Failure) :
    total (Effect.added .messageTimeouts) (recordWriteFailure events failure) =
      if .elapsed ∈ failure then events else 0 := by
  rw [recordWriteFailure]
  split <;> simp [Effect.added]

/-- A write fails because of its time, or of the transport. -/
theorem elapsed_iff {now : Instant} {write : Write} {act : WriteAct} {failure : Failure}
    {bytes : List UInt8} (h : write.step config now act = some (.failed failure, bytes)) :
    Cause.elapsed ∈ failure ↔ act = .timedOut := by
  cases act with
  | wrote n =>
    simp only [Write.step] at h
    split at h
    · cases h
    · simp at h
  | flushed =>
    simp only [Write.step] at h
    split at h <;> cases h
  | failed context isInvalidData =>
    obtain ⟨hfailure, -⟩ := Prod.mk.inj (Option.some.inj h)
    obtain rfl := WriteOutcome.failed.inj hfailure
    simp
  | timedOut =>
    simp only [Write.step, Option.ite_none_right_eq_some, Option.some.injEq, Prod.mk.injEq,
      WriteOutcome.failed.injEq] at h
    obtain ⟨-, rfl, -⟩ := h
    simp

/-- A write with `events` in it: they are timeouts if it times out. -/
theorem timeouts_of_write (events : ℕ) (p : Sender × List Effect) {now : Instant} {write : Write}
    {act : WriteAct} {outcome : WriteOutcome} {bytes : List UInt8}
    (hwrite : write.step config now act = some (outcome, bytes))
    (hfailed : ∀ failure, outcome = .failed failure →
      p = (s.fail, recordWriteFailure events failure))
    (htimely : outcome.isFailed = false → Timely p) :
    (act = .timedOut → total (Effect.added .messageTimeouts) p.2 = events ∧
      p.1.phase = .returned (.error [.runtime .write])) ∧
    (act ≠ .timedOut → total (Effect.added .messageTimeouts) p.2 = 0) := by
  have hfails := Write.step_isFailed hwrite
  cases outcome with
  | failed failure =>
    rw [hfailed failure rfl, timeouts_recordWriteFailure]
    have helapsed := elapsed_iff hwrite
    exact ⟨fun hact => ⟨if_pos (helapsed.mpr hact), rfl⟩,
      fun hact => if_neg (mt helapsed.mp hact)⟩
  | pending write =>
    refine ⟨?_, fun _ => htimely rfl⟩
    rintro rfl
    cases hfails
  | done =>
    refine ⟨?_, fun _ => htimely rfl⟩
    rintro rfl
    cases hfails

/-- **The timeouts of one step** are the events of a write that times out. The sender returns
then. -/
theorem step_timeouts (h : s.step P participant config w act = some (s', out)) :
    (act = .write .timedOut → total (Effect.added .messageTimeouts) out = s.inWrite ∧
      s'.phase = .returned (.error [.runtime .write])) ∧
    (act ≠ .write .timedOut → total (Effect.added .messageTimeouts) out = 0) := by
  cases steps_of_step h with
  | tick utc id hphase hdue hp =>
    have htimely := timely_dispatch P participant config s w.now utc id
    obtain ⟨-, rfl⟩ := Prod.mk.inj hp
    rw [total_cons]
    exact ⟨fun hact => (by cases hact), fun _ => (Nat.zero_add _).trans htimely⟩
  | stopped hphase _ hp | deadline hphase _ hp =>
    obtain ⟨-, rfl⟩ := Prod.mk.inj hp
    exact ⟨fun hact => (by cases hact), fun _ => timely_leave s⟩
  | flush act write next outcome bytes hphase hwrite hp =>
    have hin : s.inWrite = s.batch.events := by simp only [inWrite, hphase]
    obtain ⟨hevents, hnone⟩ := timeouts_of_write s.batch.events (s.flushOutcome next outcome)
      hwrite (fun failure hfailure => congrArg (s.flushOutcome next) hfailure)
      (timely_flushOutcome s next)
    obtain ⟨rfl, rfl⟩ := Prod.mk.inj hp
    rw [List.cons_append, total_cons, total_append, total_delivered s fun _ => rfl, hin]
    simp only [Effect.added, Nat.zero_add, SenderAct.write.injEq, ne_eq]
    exact ⟨hevents, hnone⟩
  | frame act write outcome bytes hphase hwrite hp =>
    have hin : s.inWrite = 1 := by simp only [inWrite, hphase]
    obtain ⟨hevents, hnone⟩ := timeouts_of_write 1 (s.frameOutcome config outcome)
      hwrite (fun failure hfailure => congrArg (s.frameOutcome config) hfailure)
      (timely_frameOutcome config s)
    obtain ⟨rfl, rfl⟩ := Prod.mk.inj hp
    rw [total_cons, hin]
    simp only [Effect.added, Nat.zero_add, SenderAct.write.injEq, ne_eq]
    exact ⟨hevents, hnone⟩
  | publish next hphase hp =>
    have htimely := timely_afterFlush config { s with batch := {} } w.now next
    obtain ⟨-, rfl⟩ := Prod.mk.inj hp
    rw [total_append, total_publish participant s fun _ _ _ => rfl]
    exact ⟨fun hact => (by cases hact), fun _ => (Nat.zero_add _).trans htimely⟩

/-- A sender that has returned takes no step. -/
theorem ne_returned_of_step {result : Except Failure Unit}
    (h : s.step P participant config w act = some (s', out)) : s.phase ≠ .returned result := by
  intro hreturned
  cases steps_of_step h with
  | tick _ _ hphase | stopped hphase | deadline hphase | flush _ _ _ _ _ hphase
  | frame _ _ _ _ hphase | publish _ hphase => cases hreturned.symm.trans hphase

/-! ## The errors of a run -/

/-- The books of a run are balanced, and nothing has timed out. -/
structure Exact (t : Sender × List Effect) : Prop where
  timely : Timely t
  balanced : total Effect.generated t.2 =
    total Effect.sent t.2 + total Effect.dropped t.2 + t.1.uncounted

/-- What holds of a run up to now: it is exact as long as the sender has not returned. -/
structure Sound (t : Sender × List Effect) : Prop where
  ofSession : ∀ e ∈ t.2, e.OfSession
  exact : (∀ result, t.1.phase ≠ .returned result) → Exact t

variable {t u : Sender × List Effect} {i : World × SenderAct}

theorem Sound.exact_of_step (ht : Sound t)
    (h : (component P participant config).logged.step t i = some u) : Exact t := by
  obtain ⟨out, hstep, -⟩ := Component.logged_step.mp h
  exact ht.exact fun result => ne_returned_of_step hstep

/-- Only a write that fails loses events. The sender returns then. -/
theorem loses_eq_zero_of_step (h : s.step P participant config w act = some (s', out))
    (hreturned : ∀ result, s'.phase ≠ .returned result) : s.loses act = 0 := by
  cases steps_of_step h with
  | tick | stopped | deadline | publish => rfl
  | flush act write next outcome bytes hphase hwrite hp =>
    obtain ⟨rfl, rfl⟩ := Prod.mk.inj hp
    rw [loses, ← Write.step_isFailed hwrite]
    cases outcome with
    | failed failure => exact absurd rfl (hreturned _)
    | _ => rfl
  | frame act write outcome bytes hphase hwrite hp =>
    obtain ⟨rfl, rfl⟩ := Prod.mk.inj hp
    rw [loses, ← Write.step_isFailed hwrite]
    cases outcome with
    | failed failure => exact absurd rfl (hreturned _)
    | _ => rfl

theorem sound_step (ht : Sound t)
    (h : (component P participant config).logged.step t i = some u) : Sound u := by
  have hexact := ht.exact_of_step h
  obtain ⟨out, hstep, hlog⟩ := Component.logged_step.mp h
  have hbooks := step_accounts hstep
  refine ⟨fun e he => ?_, fun hreturned => ⟨?_, ?_⟩⟩
  · rw [hlog] at he
    rcases List.mem_append.mp he with he | he
    · exact ht.ofSession e he
    · exact step_ofSession hstep e he
  · rw [Timely, hlog, total_append, hexact.timely]
    exact (Nat.zero_add _).trans ((step_timeouts hstep).2 fun hact =>
      hreturned _ ((step_timeouts hstep).1 hact).2)
  · have hbalanced := hexact.balanced
    rw [loses_eq_zero_of_step hstep hreturned] at hbooks
    rw [hlog, total_append, total_append, total_append]
    omega

/-- **The errors of one step**: its events are counted once, unless a write doubles them. -/
theorem countedOnce_step (ht : Sound t)
    (h : (component P participant config).logged.step t i = some u) :
    CountedOnce u.2 ↔ ¬ t.1.Doubles i.2 := by
  obtain ⟨htimely, hbalanced⟩ := ht.exact_of_step h
  obtain ⟨out, hstep, hlog⟩ := Component.logged_step.mp h
  have hbooks := step_accounts hstep
  obtain ⟨htimeout, hnone⟩ := step_timeouts hstep
  rw [countedOnce_iff_total (sound_step ht h).ofSession, hlog, total_append, total_append,
    total_append, total_append, htimely]
  by_cases hact : i.2 = .write .timedOut
  · -- the sender returns with the events behind the write lost
    obtain ⟨hevents, hreturned⟩ := htimeout hact
    have huncounted : u.1.uncounted = 0 := by simp only [uncounted, hreturned]
    have hloses : t.1.loses i.2 = t.1.behind := by rw [hact]; rfl
    rw [Doubles, hevents]
    simp only [hact, true_and]
    omega
  · rw [hnone hact]
    refine iff_of_true ?_ fun hdoubles => hact hdoubles.1
    omega

/-- **The errors of a run** are at most its events that are not sent, exactly when no write of it
times out with more events in it than there are behind it. -/
theorem countedOnce_iff {created : Instant} {interval : Duration}
    {inputs : List (World × SenderAct)} {log : List Effect}
    (h : (component P participant config).logged.exec (Sender.new created interval, []) inputs =
      some (s, log)) :
    CountedOnce log ↔ (component P participant config).logged.Along
      (fun t i => ¬ t.1.Doubles i.2) (Sender.new created interval, []) inputs := by
  have hstart : Sound (Sender.new created interval, []) := ⟨by simp, fun _ => ⟨rfl, rfl⟩⟩
  constructor
  · intro hcounted
    by_contra halong
    -- the sender returns when a write times out, so that is the last step
    obtain ⟨before, i, after, u, v, rfl, hbefore, -, hdoubles, hstep, hafter⟩ :=
      Machine.exists_violation halong h
    have hu := Machine.exec_invariant (fun _ _ _ => sound_step) hstart hbefore
    obtain ⟨out, hout, -⟩ := Component.logged_step.mp hstep
    have hreturned := ((step_timeouts hout).1 (not_not.mp hdoubles).1).2
    cases after with
    | nil =>
      obtain rfl := Option.some.inj hafter
      exact hdoubles ((countedOnce_step hu hstep).mp hcounted)
    | cons j after =>
      obtain ⟨x, hx, -⟩ := Machine.exec_cons.mp hafter
      obtain ⟨out', hout', -⟩ := Component.logged_step.mp hx
      exact ne_returned_of_step hout' hreturned
  · intro halong
    have hend : Sound (s, log) ∧ CountedOnce log :=
      Machine.exec_invariant_along (I := fun t => Sound t ∧ CountedOnce t.2)
        (fun _ _ _ ht hi hstep => ⟨sound_step ht.1 hstep, (countedOnce_step ht.1 hstep).mpr hi⟩)
        halong ⟨hstart, fun _ => le_rfl⟩ h
    exact hend.2

/-! ## A write that times out -/

open Session.Pending

/-- Two events that are sent and one that is dropped at the deadline are counted once. -/
theorem countedOnce_iff_pending : ∃ first second, CountedOnce (Paired.log first second) := by
  obtain ⟨first, second, third, hexec⟩ := Paired.exists_leaving
  refine ⟨first, second, (countedOnce_iff hexec).mpr (Machine.along_of_forall ?_)⟩
  rintro t i hi ⟨hact, -⟩
  simp only [Paired.writing, Paired.leaving, List.cons_append, List.nil_append, List.mem_cons,
    List.not_mem_nil, or_false] at hi
  rcases hi with rfl | rfl | rfl | rfl | rfl | rfl | rfl <;> cases hact

/-- Batches of one event. -/
def singles : AppConfig := { pairs with scenario := {} }

/-- The sender with its event in a write. -/
def flushing (bytes : List UInt8) : Sender :=
  { holding bytes with phase := .flushing ⟨[bytes], 0, 30000000000⟩ .batch }

/-- Nothing is delivered without bytes. -/
theorem delivered_zero (s : Sender) (written : ℕ) : s.delivered written 0 = [] := by
  rw [delivered, List.map_eq_nil_iff, List.filter_eq_nil_iff]
  intro c _
  simp only [decide_eq_true_eq]
  omega

/-- An event is made at 30 s, and its write takes more than its time. -/
theorem exec_timeout {bytes : List UInt8}
    (hbytes : Utf8.asBytes (positionXml P peer singles 0 7) = bytes)
    (hlimit : bytes.length ≤ 8 * 1024 * 1024) (hne : bytes ≠ []) :
    (component P peer singles).logged.exec (Sender.new 0 30000000000, [])
        [(world 30000000000, .tick 0 7), (world 60000000000, .write .timedOut)] =
      some ((flushing bytes).fail, [.generate (some 7), .write [], .add .droppedMessages 1,
        .add .messageTimeouts 1]) := by
  have hfull : (Sender.new 0 30000000000).tick P peer singles 30000000000 0 7 =
      (flushing bytes, [.generate (some 7)]) :=
    tick_of_full rfl rfl hbytes (by simpa [Sender.new] using hlimit) (by decide) hne
  have htick : (Sender.new 0 30000000000).step P peer singles (world 30000000000) (.tick 0 7) =
      some (flushing bytes, [.generate (some 7)]) := congrArg some hfull
  have hticked : (component P peer singles).logged.step (Sender.new 0 30000000000, [])
      (world 30000000000, .tick 0 7) = some (flushing bytes, [.generate (some 7)]) := by
    simp only [Component.logged, component, htick, Option.map_some]
    rfl
  have htimeout : (component P peer singles).logged.step (flushing bytes, [.generate (some 7)])
      (world 60000000000, .write .timedOut) =
      some ((flushing bytes).fail, [.generate (some 7), .write [], .add .droppedMessages 1,
        .add .messageTimeouts 1]) := by
    have hdue : 30000000000 + singles.timeouts.write ≤ (world 60000000000).now := by decide
    have hwrite : Write.step singles (world 60000000000).now ⟨[bytes], 0, 30000000000⟩ .timedOut =
        some (.failed [.message "write timed out", .elapsed], []) := by
      simp only [Write.step, if_pos hdue]
    simp only [Component.logged, component, step, flushing, hwrite, Option.map_some,
      List.length_nil, delivered_zero]
    rfl
  exact Machine.exec_step hticked (Machine.exec_step htimeout rfl)

/-- One event whose write times out is two message errors. -/
theorem timeout_counted_twice :
    validateWithOptions singles {} = .ok () ∧ ∃ inputs s log,
      (component Reference.platform peer singles).logged.exec (Sender.new 0 30000000000, [])
        inputs = some (s, log) ∧
      total Effect.generated log = 1 ∧
      (World.initial false |>.applyAll log).messageErrors = 2 ∧ ¬ CountedOnce log := by
  refine ⟨by decide, _, _, _, exec_timeout rfl (Reference.length_toXml_le_limit (by decide))
    (asBytes_toXml_ne_nil _), rfl, rfl, fun hcounted => ?_⟩
  exact absurd (hcounted (World.initial false)) (by decide)

end Sender

end TakBench
