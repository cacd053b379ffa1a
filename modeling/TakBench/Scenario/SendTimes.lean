import TakBench.Protocol.Reference
import TakBench.Scenario.Books
import TakBench.Scenario.Delivery

/-!
# The times at which events are sent

The time that the ledger has for an event is that of the tick that made it. An event that is not
the last of its batch waits for the ticks of the others, and the wait is a part of its latency and
of the time that a receiver has to see it.

## Main definitions

* `Timed`: a sender with the ticks of the events in its batch
* `Timed.Undistorted`: what a step publishes was made at the tick that completed the batch
* `Timed.MadeAtOnce`: no event of a batch that is published has waited for a later tick

## Main results

* `Timed.undistorted_iff`: the send times of a run are those of the completed batches exactly when
  no published event has waited
* `Timed.undistorted_of_unbatched`: no event waits for another without batches
-/

namespace TakBench

variable (P : Platform) (participant : ParticipantConfig) (config : AppConfig)

/-- A sender with the ticks that made the position events of its batch, and its last tick. -/
structure Timed where
  sender : Sender
  made : List Instant
  lastTick : Instant

namespace Timed

/-- A sender after its first tick, which is immediate. -/
def new (created : Instant) (interval : Duration) : Timed :=
  ⟨.new created interval, [], created⟩

/-- The ticks after a step of the sender. -/
def after (t : Timed) (now : Instant) (s : Sender) : SenderAct → Timed
  | .tick _ id => ⟨s, t.made ++ (t.sender.eventId config id).toList.map fun _ => now, now⟩
  | .published => { t with sender := s, made := [] }
  | _ => { t with sender := s }

/-- `send_positions`, in any worlds. -/
def machine : Machine Timed (World × SenderAct) where
  step t i := (t.sender.step P participant config i.1 i.2).map fun p =>
    t.after config i.1.now p.1 i.2

/-- The time recorded for each event that a step publishes is not before the tick that completed
the batch. -/
def Undistorted (t : Timed) (i : World × SenderAct) : Prop :=
  ∀ s out, t.sender.step P participant config i.1 i.2 = some (s, out) →
    ∀ id name sentAt, .publish id name sentAt ∈ out → t.lastTick ≤ sentAt

/-- A batch is published only if no tick that made an event of it was before the last one. -/
def MadeAtOnce (t : Timed) (i : World × SenderAct) : Prop :=
  i.2 = .published → (∃ next, t.sender.phase = .publishing next) →
    ∀ instant ∈ t.made, t.lastTick ≤ instant

/-- The times in the batch are those of the ticks. -/
def Dated (t : Timed) : Prop := t.sender.batch.correlations.map (·.sentAt) = t.made

variable {P participant config} {t t' : Timed} {i : World × SenderAct}

theorem exists_of_step (h : (machine P participant config).step t i = some t') :
    ∃ s out, t.sender.step P participant config i.1 i.2 = some (s, out) ∧
      t' = t.after config i.1.now s i.2 := by
  obtain ⟨⟨s, out⟩, hstep, rfl⟩ := Option.map_eq_some_iff.mp h
  exact ⟨s, out, hstep, rfl⟩

theorem step_eq {w : World} {act : SenderAct} {s : Sender} {out : List Effect}
    (h : t.sender.step P participant config w act = some (s, out)) :
    (machine P participant config).step t (w, act) = some (t.after config w.now s act) := by
  simp only [machine, h, Option.map_some]

theorem dated_step (ht : t.Dated) (h : (machine P participant config).step t i = some t') :
    t'.Dated := by
  obtain ⟨s', out, hstep, rfl⟩ := exists_of_step h
  obtain ⟨s, made, lastTick⟩ := t
  obtain ⟨w, act⟩ := i
  simp only [Dated] at ht hstep ⊢
  cases Sender.steps_of_step hstep with
  | tick utc id hphase hdue hp =>
    obtain ⟨rfl, rfl⟩ := Prod.mk.inj hp
    simp only [after, (s.keeps_dispatch P participant config w.now utc id).batch, Sender.ticked]
    split
    · next hframe =>
      -- an oversized frame has no id, and does not join the batch
      have hid : s.eventId config id = none := by
        simp only [Sender.eventId, of_decide_eq_true hframe, Option.isNone_some,
          Bool.false_eq_true, if_false]
      rw [hid, ht]
      exact (List.append_nil _).symm
    · rw [Sender.push, List.map_append, ht, List.map_map]
      rfl
  | stopped _ _ hp | deadline _ _ hp =>
    obtain ⟨rfl, rfl⟩ := Prod.mk.inj hp
    exact ht
  | flush act write next outcome bytes hphase hwrite hp =>
    obtain ⟨rfl, rfl⟩ := Prod.mk.inj hp
    simp only [after, (s.keeps_flushOutcome next outcome).batch, ht]
  | frame act write outcome bytes hphase hwrite hp =>
    obtain ⟨rfl, rfl⟩ := Prod.mk.inj hp
    simp only [after, (s.keeps_frameOutcome config outcome).batch, ht]
  | publish next hphase hp =>
    -- the batch is emptied, and so are the times of its ticks
    obtain ⟨rfl, rfl⟩ := Prod.mk.inj hp
    simp only [after,
      (Sender.keeps_afterFlush config { s with batch := {} } w.now next).batch, List.map_nil]

/-- A step publishes the batch, with the times of its ticks. -/
theorem undistorted_step_iff (ht : t.Dated) :
    Undistorted P participant config t i ↔ MadeAtOnce t i := by
  obtain ⟨s, made, lastTick⟩ := t
  obtain ⟨w, act⟩ := i
  obtain rfl : s.batch.correlations.map (·.sentAt) = made := ht
  constructor
  · rintro h rfl ⟨next, hphase⟩ instant hmade
    -- each event of the batch is published by this step
    obtain ⟨c, hc, rfl⟩ := List.mem_map.mp hmade
    simp only at hphase
    have hstep : s.step P participant config w .published =
        some (({ s with batch := {} }.afterFlush config w.now next).1, s.publish participant ++
          ({ s with batch := {} }.afterFlush config w.now next).2) := by
      simp only [Sender.step, hphase]
    exact h _ _ hstep c.id participant.id c.sentAt
      ((Sender.publish_step_iff hstep).mpr ⟨rfl, rfl, c, hc, rfl, rfl⟩)
  · intro h s' out hstep id name sentAt hpublish
    obtain ⟨rfl, -, c, hc, -, rfl⟩ := (Sender.publish_step_iff hstep).mp hpublish
    cases Sender.steps_of_step hstep with
    | publish next hphase hp =>
      exact h rfl ⟨next, hphase⟩ c.sentAt (List.mem_map_of_mem hc)

/-- **The send times of a run are not before the ticks that completed the batches** exactly when
no event of a batch that is published has waited for a later tick. -/
theorem undistorted_iff (created : Instant) (interval : Duration)
    (inputs : List (World × SenderAct)) :
    (machine P participant config).Along (Undistorted P participant config)
        (new created interval) inputs ↔
      (machine P participant config).Along MadeAtOnce (new created interval) inputs :=
  Machine.along_congr (fun _ _ _ => dated_step) (fun _ _ => undistorted_step_iff) rfl

/-! ## A batch of two events -/

open Session.Pending Sender.Paired

theorem exec_writing {P : Platform} {first second : List UInt8}
    (hfirst : Utf8.asBytes (positionXml P peer pairs 0 7) = first)
    (hsecond : Utf8.asBytes (positionXml P peer pairs 0 8) = second)
    (hlimit : first.length + second.length ≤ 8 * 1024 * 1024) :
    (machine P peer pairs).exec (new 0 30000000000) (writing (first ++ second).length) =
      some ⟨Sender.Paired.sender first second (.publishing .batch), [30000000000, 60000000000],
        60000000000⟩ := by
  have hne : first ≠ [] := hfirst ▸ asBytes_toXml_ne_nil _
  have hne' : second ≠ [] := hsecond ▸ asBytes_toXml_ne_nil _
  refine Machine.exec_step (step_eq (step_first hfirst ((Nat.le_add_right _ _).trans hlimit)))
    (Machine.exec_step (step_eq (step_second hsecond hlimit hne')) (Machine.exec_step
      (step_eq (step_wrote hne hne')) (Machine.exec_step (step_eq (step_flushed first second)) ?_)))
  rfl

/-- A batch of two events, 30 s apart: the first is published with the time of its own tick, half a
minute before the batch is written. -/
theorem publish_distorted :
    ∃ inputs t s out, (machine Reference.platform peer pairs).exec (new 0 30000000000) inputs =
        some t ∧ t.lastTick = 60000000000 ∧
      t.sender.step Reference.platform peer pairs (world 60000000000) .published =
        some (s, out) ∧ .publish 7 "peer" 30000000000 ∈ out ∧
      ¬ (machine Reference.platform peer pairs).Along (Undistorted Reference.platform peer pairs)
        (new 0 30000000000) (inputs ++ [(world 60000000000, .published)]) := by
  have hexec := exec_writing (P := Reference.platform) rfl rfl
    ((Nat.add_le_add (length_positionXml 7) (length_positionXml 8)).trans (by decide))
  refine ⟨_, _, _, _, hexec, rfl, rfl, List.mem_append_left _ List.mem_cons_self, ?_⟩
  intro halong
  have hlast := ((Machine.along_append hexec).mp halong).2.1 _ _ rfl 7 "peer" 30000000000
    (List.mem_append_left _ List.mem_cons_self)
  exact absurd hlast (by decide)

/-! ## Without batches -/

/-- An event of the batch was made at the last tick, and is being written. -/
structure Alone (t : Timed) : Prop where
  last : ∀ instant ∈ t.made, instant = t.lastTick
  written : t.made ≠ [] →
    t.sender.phase ≠ .selecting ∧ ∀ write, t.sender.phase ≠ .writingFrame write

/-- An event that joins the batch is written at once. -/
theorem append_phase {s : Sender} (now : Instant)
    (hunbatched : config.scenario.fragmentation.eventsPerWrite ≤ 1)
    (hevents : 1 ≤ s.batch.events) (hne : s.batch.bytes ≠ []) :
    (s.append config now).1.phase ≠ .selecting ∧
      ∀ write, (s.append config now).1.phase ≠ .writingFrame write := by
  have hfull : max config.scenario.fragmentation.eventsPerWrite 1 ≤ s.batch.events :=
    (Nat.max_le.mpr ⟨hunbatched, Nat.le_refl 1⟩).trans hevents
  have hwritten : s.batch.bytes.isEmpty = false := by simpa using hne
  rw [Sender.append, if_pos hfull]
  split
  · simp [Sender.overflow]
  · simp only [Sender.flush, hwritten, Bool.false_eq_true, if_false]
    cases Write.start config s.batch.bytes now <;> simp [Sender.flushOutcome, Sender.fail]

theorem alone_step (hunbatched : config.scenario.fragmentation.eventsPerWrite ≤ 1)
    (ht : t.Alone) (h : (machine P participant config).step t i = some t') : t'.Alone := by
  obtain ⟨s', out, hstep, rfl⟩ := exists_of_step h
  obtain ⟨s, made, lastTick⟩ := t
  obtain ⟨w, act⟩ := i
  obtain ⟨hlast, hwritten⟩ := ht
  simp only at hlast hwritten hstep ⊢
  cases Sender.steps_of_step hstep with
  | tick utc id hphase hdue hp =>
    obtain ⟨rfl, rfl⟩ := Prod.mk.inj hp
    -- a sender that selects has nothing in its batch
    obtain rfl : made = [] := by
      by_contra hmade
      exact (hwritten hmade).1 hphase
    refine ⟨by simp [after], ?_⟩
    simp only [after, List.nil_append, Sender.dispatch]
    split
    · next hframe =>
      -- an oversized frame makes no event of the batch
      simp [Sender.eventId, of_decide_eq_true hframe]
    · next hframe =>
      intro _
      refine append_phase w.now hunbatched ?_ ?_
      · simp [Sender.ticked, hframe, Sender.push]
      · simp only [Sender.ticked, hframe, Sender.push]
        exact List.append_ne_nil_of_right_ne_nil _
          (Made.ofTick_bytes_ne_nil P participant config s.eventCount utc id false)
  | stopped _ _ hp | deadline _ _ hp =>
    obtain ⟨rfl, rfl⟩ := Prod.mk.inj hp
    exact ⟨hlast, fun _ => by simp [after]⟩
  | flush act write next outcome bytes hphase hwrite hp =>
    obtain ⟨rfl, rfl⟩ := Prod.mk.inj hp
    refine ⟨hlast, fun _ => ?_⟩
    cases outcome <;> simp [after, Sender.flushOutcome, Sender.fail]
  | frame act write outcome bytes hphase hwrite hp =>
    obtain ⟨rfl, rfl⟩ := Prod.mk.inj hp
    exact ⟨hlast, fun hmade => absurd hphase ((hwritten hmade).2 write)⟩
  | publish next hphase hp =>
    obtain ⟨rfl, rfl⟩ := Prod.mk.inj hp
    exact ⟨by simp [after], fun hmade => absurd rfl hmade⟩

/-- **Without batches no send time is distorted.** -/
theorem undistorted_of_unbatched
    (hunbatched : config.scenario.fragmentation.eventsPerWrite ≤ 1) (created : Instant)
    (interval : Duration) (inputs : List (World × SenderAct)) :
    (machine P participant config).Along (Undistorted P participant config)
      (new created interval) inputs := by
  refine (undistorted_iff created interval inputs).mpr ?_
  have hmade : ∀ (t : Timed) (i : World × SenderAct), t.Alone → (MadeAtOnce t i ↔ True) :=
    fun t i ht => iff_true_intro fun _ _ instant hinstant => (ht.last instant hinstant).ge
  refine (Machine.along_congr (fun _ _ _ => alone_step hunbatched) hmade ⟨by simp [new], ?_⟩).mpr
    (Machine.along_of_forall fun _ _ _ => trivial)
  exact fun hmade => absurd rfl hmade

end Timed

end TakBench
