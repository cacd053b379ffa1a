import TakBench.Scenario.Run

/-!
# Delivered and published events

An event is delivered when the transport takes its last byte, and published when its batch is
recorded in the ledger. In between it is unpublished. A sender whose write fails, or that is
dropped where it stands, gives its unpublished events up: a receiver may see them, and the ledger
never knows that they were sent.

## Main definitions

* `Sender.unpublished`, `Sender.givesUp`, `Participant.givesUp`
* `Booked`: where the ids in the log of a task come from

## Main results

* `Sender.step_unpublished`, `Participant.step_unpublished`: an event that is delivered or
  unpublished is published, stays unpublished, or is given up
* `Run.booked_invariant`: events are made before they are delivered and published
-/

namespace TakBench

variable {P : Platform} {participant : ParticipantConfig} {config : AppConfig} {w : World}
  {out : List Effect} {id : Uuid}

/-! ## Senders -/

namespace Sender

/-- The events that are delivered and not published. -/
def unpublished (s : Sender) : List Uuid :=
  match s.phase with
  | .flushing write _ => (s.batch.correlations.filter fun c => c.endsAt ≤ write.written).map (·.id)
  | .publishing _ => s.batch.correlations.map (·.id)
  | _ => []

/-- The unpublished events that a step gives up. -/
def givesUp (s : Sender) : SenderAct → List Uuid
  | .write act => if act.fails then s.unpublished else []
  | _ => []

variable {s s' : Sender} {act : SenderAct}

/-- A write in progress has written what the transport took. -/
theorem Write.step_written {now : Instant} {write write' : Write} {a : WriteAct}
    {bytes : List UInt8} (h : write.step config now a = some (.pending write', bytes)) :
    write'.written = write.written + bytes.length := by
  cases a with
  | wrote n =>
    simp only [Write.step] at h
    split at h
    · cases h
    · simp only [Option.ite_none_right_eq_some, Option.some.injEq, Prod.mk.injEq,
        WriteOutcome.pending.injEq] at h
      obtain ⟨⟨-, hn⟩, rfl, rfl⟩ := h
      rw [List.length_take, Nat.min_eq_left hn]
  | flushed =>
    simp only [Write.step] at h
    split at h
    · simp at h
    · simp only [Option.some.injEq, Prod.mk.injEq, WriteOutcome.pending.injEq] at h
      obtain ⟨rfl, rfl⟩ := h
      rfl
    · cases h
  | failed context isInvalidData => simp [Write.step] at h
  | timedOut => simp [Write.step] at h

/-- A write that fails takes nothing. -/
theorem Write.step_fails {now : Instant} {write : Write} {a : WriteAct} {outcome : WriteOutcome}
    {bytes : List UInt8} (h : write.step config now a = some (outcome, bytes))
    (hfails : a.fails = true) : bytes = [] := by
  cases a with
  | wrote n => cases hfails
  | flushed => cases hfails
  | failed context isInvalidData => exact (Prod.mk.inj (Option.some.inj h)).2.symm
  | timedOut =>
    simp only [Write.step, Option.ite_none_right_eq_some, Option.some.injEq, Prod.mk.injEq] at h
    exact h.2.2.symm

theorem mem_delivered {written n : ℕ} : .deliver id ∈ s.delivered written n ↔
    ∃ c ∈ s.batch.correlations, c.id = id ∧ written < c.endsAt ∧ c.endsAt ≤ written + n := by
  simp only [delivered, List.mem_map, List.mem_filter, decide_eq_true_eq, Effect.deliver.injEq]
  constructor
  · rintro ⟨c, ⟨hc, hends⟩, hid⟩
    exact ⟨c, hc, hid, hends⟩
  · rintro ⟨c, hc, hid, hends⟩
    exact ⟨c, ⟨hc, hends⟩, hid⟩

theorem Keeps.deliver_notMem {p : Sender × List Effect} (h : s.Keeps p) : .deliver id ∉ p.2 :=
  fun hmem => h.effects _ hmem

/-- A sender that selects has published what it has delivered. -/
theorem unpublished_of_selecting (hphase : s.phase = .selecting) : s.unpublished = [] := by
  simp only [unpublished, hphase]

theorem not_of_leave (hphase : s.phase = .selecting) (h : s.leave = (s', out)) :
    ¬ (.deliver id ∈ out ∨ id ∈ s.unpublished) := by
  have hnone : .deliver id ∉ s.leave.2 := s.keeps_leave.deliver_notMem
  rw [h] at hnone
  rw [unpublished_of_selecting hphase]
  exact fun hid => hid.elim hnone List.not_mem_nil

/-- A write of the batch: an event that is delivered or unpublished stays unpublished, unless the
write fails. -/
theorem flush_unpublished {a : WriteAct} {write : Write} {next : AfterFlush}
    {outcome : WriteOutcome} {bytes : List UInt8} (hphase : s.phase = .flushing write next)
    (hwrite : write.step config w.now a = some (outcome, bytes))
    (hid : .deliver id ∈ s.delivered write.written bytes.length ∨ id ∈ s.unpublished) :
    (Session.alive? (s.flushOutcome next outcome).1 = some (s.flushOutcome next outcome).1 ∧
      id ∈ (s.flushOutcome next outcome).1.unpublished) ∨ id ∈ s.givesUp (.write a) := by
  have hunpublished : s.unpublished =
      (s.batch.correlations.filter fun c => c.endsAt ≤ write.written).map (·.id) := by
    simp only [unpublished, hphase]
  cases hfails : a.fails with
  | true =>
    right
    rw [givesUp, if_pos hfails]
    refine hid.resolve_left fun hid => ?_
    obtain ⟨c, -, -, hgt, hle⟩ := mem_delivered.mp hid
    rw [Write.step_fails hwrite hfails] at hle
    exact absurd hgt (Nat.not_lt.mpr hle)
  | false =>
    left
    -- either way the event ends among the bytes that are written now
    obtain ⟨c, hc, hcid, hle⟩ : ∃ c ∈ s.batch.correlations, c.id = id ∧
        c.endsAt ≤ write.written + bytes.length := by
      rcases hid with hid | hid
      · obtain ⟨c, hc, hcid, -, hends⟩ := mem_delivered.mp hid
        exact ⟨c, hc, hcid, hends⟩
      · rw [hunpublished] at hid
        obtain ⟨c, hc, hcid⟩ := List.mem_map.mp hid
        obtain ⟨hc, hends⟩ := List.mem_filter.mp hc
        exact ⟨c, hc, hcid, (of_decide_eq_true hends).trans (Nat.le_add_right _ _)⟩
    cases outcome with
    | pending write' =>
      refine ⟨rfl, List.mem_map.mpr ⟨c, List.mem_filter.mpr ⟨hc, ?_⟩, hcid⟩⟩
      rw [Write.step_written hwrite]
      exact decide_eq_true hle
    | done => exact ⟨rfl, List.mem_map.mpr ⟨c, hc, hcid⟩⟩
    | failed failure =>
      have hfailed := Write.step_isFailed hwrite
      rw [hfails] at hfailed
      cases hfailed

/-- **Where delivered events go** in a step of a sender. -/
theorem step_unpublished (h : s.step P participant config w act = some (s', out))
    (hid : .deliver id ∈ out ∨ id ∈ s.unpublished) :
    (∃ sentAt, .publish id participant.id sentAt ∈ out) ∨
      (Session.alive? s' = some s' ∧ id ∈ s'.unpublished) ∨ id ∈ s.givesUp act := by
  cases steps_of_step h with
  | tick utc uuid hphase hdue hp =>
    -- a tick writes nothing yet
    exfalso
    obtain ⟨-, rfl⟩ := Prod.mk.inj hp
    rw [unpublished_of_selecting hphase] at hid
    have hkeeps := s.keeps_dispatch P participant config w.now utc uuid
    rcases hid with hid | hid
    · exact hkeeps.deliver_notMem ((List.mem_cons.mp hid).resolve_left (by simp))
    · cases hid
  | stopped hphase _ hp | deadline hphase _ hp =>
    exact absurd hid (not_of_leave hphase hp.symm)
  | flush a write next outcome bytes hphase hwrite hp =>
    obtain ⟨rfl, rfl⟩ := Prod.mk.inj hp
    refine .inr (flush_unpublished hphase hwrite (hid.imp_left fun hid => ?_))
    rw [List.cons_append, List.mem_cons, List.mem_append] at hid
    exact (hid.resolve_left (by simp)).resolve_right
      (s.keeps_flushOutcome next outcome).deliver_notMem
  | frame a write outcome bytes hphase hwrite hp =>
    exfalso
    obtain ⟨-, rfl⟩ := Prod.mk.inj hp
    rcases hid with hid | hid
    · exact (s.keeps_frameOutcome config outcome).deliver_notMem
        ((List.mem_cons.mp hid).resolve_left (by simp))
    · simp [unpublished, hphase] at hid
  | publish next hphase hp =>
    -- the whole batch is published, and what is unpublished is in it
    left
    obtain ⟨rfl, rfl⟩ := Prod.mk.inj hp
    rcases hid with hid | hid
    · exfalso
      rcases List.mem_append.mp hid with hid | hid
      · obtain ⟨c, -, hc⟩ := List.mem_map.mp hid
        cases hc
      · exact (keeps_afterFlush config { s with batch := {} } w.now next).deliver_notMem hid
    · simp only [unpublished, hphase] at hid
      obtain ⟨c, hc, rfl⟩ := List.mem_map.mp hid
      exact ⟨c.sentAt, List.mem_append_left _ (List.mem_map.mpr ⟨c, hc, rfl⟩)⟩

/-- An id of the batch. -/
def Holds (s : Sender) (id : Uuid) : Prop := ∃ c ∈ s.batch.correlations, c.id = id

theorem holds_of_unpublished (hid : id ∈ s.unpublished) : s.Holds id := by
  rw [unpublished] at hid
  split at hid
  · obtain ⟨c, hc, hid⟩ := List.mem_map.mp hid
    exact ⟨c, List.mem_of_mem_filter hc, hid⟩
  · obtain ⟨c, hc, hid⟩ := List.mem_map.mp hid
    exact ⟨c, hc, hid⟩
  · cases hid

theorem holds_of_givesUp (hid : id ∈ s.givesUp act) : s.Holds id := by
  cases act with
  | write a =>
    rw [givesUp] at hid
    split at hid
    · exact holds_of_unpublished hid
    · cases hid
  | _ => cases hid

/-- The events in the effects of a step are events of the batch. -/
structure Covers (participant : ParticipantConfig) (s : Sender) (out : List Effect) : Prop where
  deliver : ∀ id, .deliver id ∈ out → s.Holds id
  publish : ∀ id name sentAt, .publish id name sentAt ∈ out →
    name = participant.id ∧ s.Holds id

theorem covers_of_counts (h : ∀ e ∈ out, e.CountsEvents) : s.Covers participant out :=
  ⟨fun _ hmem => (h _ hmem).elim, fun _ _ _ hmem => (h _ hmem).elim⟩

theorem Covers.append {out' : List Effect} (h : s.Covers participant out)
    (h' : s.Covers participant out') : s.Covers participant (out ++ out') where
  deliver id hmem := (List.mem_append.mp hmem).elim (h.deliver id) (h'.deliver id)
  publish id name sentAt hmem :=
    (List.mem_append.mp hmem).elim (h.publish id name sentAt) (h'.publish id name sentAt)

/-- An effect that neither delivers nor publishes. -/
theorem Covers.cons {e : Effect} (h : s.Covers participant out) (hdeliver : ∀ id, e ≠ .deliver id)
    (hpublish : ∀ id name sentAt, e ≠ .publish id name sentAt) :
    s.Covers participant (e :: out) where
  deliver id hmem := h.deliver id ((List.mem_cons.mp hmem).resolve_left (hdeliver id).symm)
  publish id name sentAt hmem :=
    h.publish id name sentAt ((List.mem_cons.mp hmem).resolve_left (hpublish id name sentAt).symm)

theorem covers_delivered (written n : ℕ) : s.Covers participant (s.delivered written n) where
  deliver id hmem := by
    obtain ⟨c, hc, hid, -⟩ := mem_delivered.mp hmem
    exact ⟨c, hc, hid⟩
  publish id name sentAt hmem := by
    obtain ⟨c, -, hc⟩ := List.mem_map.mp hmem
    cases hc

theorem covers_publish : s.Covers participant (s.publish participant) where
  deliver id hmem := by
    obtain ⟨c, -, hc⟩ := List.mem_map.mp hmem
    cases hc
  publish id name sentAt hmem := by
    obtain ⟨c, hc, heq⟩ := List.mem_map.mp hmem
    obtain ⟨hid, hname, -⟩ := Effect.publish.inj heq
    exact ⟨hname.symm, c, hc, hid⟩

/-- **A sender delivers and publishes events of its batch.** -/
theorem covers_step (h : s.step P participant config w act = some (s', out)) :
    s.Covers participant out := by
  cases steps_of_step h with
  | tick utc uuid hphase hdue hp =>
    obtain ⟨-, rfl⟩ := Prod.mk.inj hp
    have hkeeps := s.keeps_dispatch P participant config w.now utc uuid
    exact (covers_of_counts hkeeps.effects).cons (by simp) (by simp)
  | stopped _ _ hp | deadline _ _ hp =>
    obtain ⟨-, rfl⟩ := Prod.mk.inj hp
    exact covers_of_counts s.keeps_leave.effects
  | flush act write next outcome bytes hphase hwrite hp =>
    -- events that end in the part that is written are delivered
    obtain ⟨-, rfl⟩ := Prod.mk.inj hp
    have hcounts : s.Covers participant (s.flushOutcome next outcome).2 :=
      covers_of_counts (s.keeps_flushOutcome next outcome).effects
    exact ((covers_delivered write.written bytes.length).append hcounts).cons (by simp) (by simp)
  | frame act write outcome bytes hphase hwrite hp =>
    -- an oversized frame is no event of the batch
    obtain ⟨-, rfl⟩ := Prod.mk.inj hp
    exact (covers_of_counts (s.keeps_frameOutcome config outcome).effects).cons (by simp)
      (by simp)
  | publish next hphase hp =>
    obtain ⟨-, rfl⟩ := Prod.mk.inj hp
    exact covers_publish.append
      (covers_of_counts (keeps_afterFlush config { s with batch := {} } w.now next).effects)

/-- An event joins the batch when it is made, with the time. -/
theorem correlation_step {c : Correlation} (h : s.step P participant config w act = some (s', out))
    (hc : c ∈ s'.batch.correlations) :
    c ∈ s.batch.correlations ∨ (.generate (some c.id) ∈ out ∧ c.sentAt = w.now) := by
  rcases step_cases h with ⟨utc, uuid, rfl, -, effects, rfl, hkeeps⟩ | ⟨-, -, -, -, hbatch, -⟩
  · have hbatch : s'.batch = (s.ticked P participant config w.now utc uuid).batch := hkeeps.batch
    rw [hbatch, ticked] at hc
    simp only at hc
    -- an oversized frame does not join the batch, and another event does
    split at hc
    · exact .inl hc
    · rcases List.mem_append.mp hc with hc | hc
      · exact .inl hc
      · right
        obtain ⟨made, hmade, rfl⟩ := List.mem_map.mp hc
        rw [Option.mem_toList.mp hmade]
        exact ⟨List.mem_cons_self, rfl⟩
  · exact .inl (hbatch c hc)

theorem holds_step (h : s.step P participant config w act = some (s', out)) (hid : s'.Holds id) :
    s.Holds id ∨ .generate (some id) ∈ out := by
  obtain ⟨c, hc, rfl⟩ := hid
  rcases correlation_step h hc with hc | ⟨hmade, -⟩
  · exact .inl ⟨c, hc, rfl⟩
  · exact .inr hmade

/-- **What is published is the batch**, under the name of the participant. -/
theorem publish_step_iff {name : String} {sentAt : Instant}
    (h : s.step P participant config w act = some (s', out)) :
    .publish id name sentAt ∈ out ↔ act = .published ∧ name = participant.id ∧
      ∃ c ∈ s.batch.correlations, c.id = id ∧ c.sentAt = sentAt := by
  have hnone : ∀ {effects : List Effect}, (∀ e ∈ effects, e.CountsEvents) →
      .publish id name sentAt ∉ effects := fun hcounts hmem => hcounts _ hmem
  cases steps_of_step h with
  | tick utc uuid hphase hdue hp =>
    obtain ⟨-, rfl⟩ := Prod.mk.inj hp
    have hkeeps := hnone (s.keeps_dispatch P participant config w.now utc uuid).effects
    simp [hkeeps]
  | stopped _ _ hp | deadline _ _ hp =>
    obtain ⟨-, rfl⟩ := Prod.mk.inj hp
    exact iff_of_false (hnone s.keeps_leave.effects) (by simp)
  | flush act write next outcome bytes hphase hwrite hp =>
    obtain ⟨-, rfl⟩ := Prod.mk.inj hp
    have hkeeps := hnone (s.keeps_flushOutcome next outcome).effects
    simp [hkeeps, delivered]
  | frame act write outcome bytes hphase hwrite hp =>
    obtain ⟨-, rfl⟩ := Prod.mk.inj hp
    have hkeeps := hnone (s.keeps_frameOutcome config outcome).effects
    simp [hkeeps]
  | publish next hphase hp =>
    obtain ⟨-, rfl⟩ := Prod.mk.inj hp
    have hkeeps := hnone (keeps_afterFlush config { s with batch := {} } w.now next).effects
    simp only [List.mem_append, hkeeps, or_false, true_and, publish, List.mem_map,
      Effect.publish.injEq]
    constructor
    · rintro ⟨c, hc, hid, hname, hsentAt⟩
      exact ⟨hname.symm, c, hc, hid, hsentAt⟩
    · rintro ⟨hname, c, hc, hid, hsentAt⟩
      exact ⟨c, hc, hid, hname.symm, hsentAt⟩

end Sender

/-! ## Participants -/

namespace Participant

/-- The unpublished events that a step gives up. -/
def givesUp (p : Participant) : ParticipantAct → List Uuid
  | .session .readerDone => p.sender?.elim [] Sender.unpublished
  | .session (.sender act) => p.sender?.elim [] fun s => s.givesUp act
  | _ => []

/-- Is an event unpublished? -/
def Pending (p : Participant) (id : Uuid) : Prop :=
  ∃ s, p.sender? = some s ∧ id ∈ s.unpublished

variable {p p' : Participant} {act : ParticipantAct}

/-- **Where delivered events go** in a step of a participant. -/
theorem step_unpublished (h : p.step P participant config w act = some (p', out))
    (hid : .deliver id ∈ out ∨ p.Pending id) :
    (∃ sentAt, .publish id participant.id sentAt ∈ out) ∨ p'.Pending id ∨ id ∈ p.givesUp act := by
  rcases sender_cases h with ⟨s, s', a, rfl, hs, hstep, hs', -⟩ |
    ⟨interval, -, hmay, -, -, -, -, -, rfl⟩ | ⟨s, rfl, hs, -, -, rfl⟩ | ⟨-, hsame, -, hquiet⟩
  · have hsender : .deliver id ∈ out ∨ id ∈ s.unpublished := by
      refine hid.imp_right fun ⟨alive, halive, hid⟩ => ?_
      rwa [Option.some.inj (hs.symm.trans halive)]
    rcases Sender.step_unpublished hstep hsender with hpublish | ⟨halive, hid⟩ | hgives
    · exact .inl hpublish
    · exact .inr (.inl ⟨s', hs'.trans halive, hid⟩)
    · refine .inr (.inr ?_)
      rw [givesUp, hs]
      exact hgives
  · obtain ⟨s, hs, -⟩ := hid.resolve_left List.not_mem_nil
    rw [sender?_of_mayStart hmay] at hs
    cases hs
  · -- a sender that is dropped with its session gives up all it has not published
    obtain ⟨alive, halive, hid⟩ := hid.resolve_left List.not_mem_nil
    refine .inr (.inr ?_)
    rw [givesUp, halive]
    exact hid
  · obtain ⟨s, hs, hid⟩ := hid.resolve_left fun hmem => hquiet _ hmem
    exact .inr (.inl ⟨s, hsame.trans hs, hid⟩)

theorem holds_of_givesUp (hid : id ∈ p.givesUp act) :
    ∃ s, p.sender? = some s ∧ s.Holds id := by
  unfold givesUp at hid
  split at hid
  · cases hs : p.sender? with
    | none => simp [hs] at hid
    | some s => exact ⟨s, rfl, Sender.holds_of_unpublished (by simpa [hs] using hid)⟩
  · next a =>
    cases hs : p.sender? with
    | none => simp [hs] at hid
    | some s =>
      have hgives : id ∈ s.givesUp a := by simpa [hs] using hid
      exact ⟨s, rfl, Sender.holds_of_givesUp hgives⟩
  · cases hid

end Participant

/-! ## Tasks -/

/-- Where the ids in the log of a task come from: an event is made before it is in a batch, and
before it is delivered and published, under the name of the participant. -/
structure Booked (task : Task) : Prop where
  held : ∀ s, task.state.sender? = some s → ∀ id, s.Holds id → .generate (some id) ∈ task.log
  delivered : ∀ id, .deliver id ∈ task.log → .generate (some id) ∈ task.log
  published : ∀ id name sentAt, .publish id name sentAt ∈ task.log →
    name = task.participant.id ∧ .generate (some id) ∈ task.log

theorem booked_spawn (participant : ParticipantConfig) (delay : Duration) :
    Booked ⟨participant, Participant.spawn delay, []⟩ := by
  refine ⟨fun s hs => ?_, fun id hid => ?_, fun id name sentAt hid => ?_⟩
  · cases hs
  · cases hid
  · cases hid

theorem booked_step {task : Task} {act : ParticipantAct} {state : Participant}
    (htask : Booked task)
    (h : task.state.step P task.participant config w act = some (state, out)) :
    Booked { task with state, log := task.log ++ out } := by
  obtain ⟨participant, p, log⟩ := task
  obtain ⟨hheld, hdelivered, hpublished⟩ := htask
  simp only at hheld hdelivered hpublished h
  rcases Participant.sender_cases h with ⟨s, s', a, rfl, hs, hstep, hs', -⟩ |
    ⟨interval, -, -, -, -, -, hs', -, rfl⟩ | ⟨s, rfl, hs, hs', -, rfl⟩ | ⟨-, hsame, -, hquiet⟩
  · -- a step of the sender delivers and publishes only what the batch holds
    refine ⟨fun alive halive id hid => ?_, fun id hid => ?_, fun id name sentAt hid => ?_⟩
    · obtain rfl := Session.eq_of_alive? (hs'.symm.trans halive)
      rcases Sender.holds_step hstep hid with hid | hid
      · exact List.mem_append_left _ (hheld s hs id hid)
      · exact List.mem_append_right _ hid
    · refine List.mem_append_left _ ((List.mem_append.mp hid).elim (hdelivered id) fun hid => ?_)
      exact hheld s hs id ((Sender.covers_step hstep).deliver id hid)
    · rcases List.mem_append.mp hid with hid | hid
      · exact ⟨(hpublished id name sentAt hid).1,
          List.mem_append_left _ (hpublished id name sentAt hid).2⟩
      · obtain ⟨hname, hholds⟩ := (Sender.covers_step hstep).publish id name sentAt hid
        exact ⟨hname, List.mem_append_left _ (hheld s hs id hholds)⟩
  · -- a sender starts with an empty batch
    rw [List.append_nil]
    refine ⟨fun alive halive id hid => ?_, hdelivered, hpublished⟩
    obtain rfl := Option.some.inj (hs'.symm.trans halive)
    obtain ⟨c, hc, -⟩ := hid
    cases hc
  · rw [List.append_nil]
    refine ⟨fun alive halive => ?_, hdelivered, hpublished⟩
    rw [hs'] at halive
    cases halive
  · refine ⟨fun s hs id hid => ?_, fun id hid => ?_, fun id name sentAt hid => ?_⟩
    · exact List.mem_append_left _ (hheld s (hsame ▸ hs) id hid)
    · have hold := (List.mem_append.mp hid).resolve_right fun hid => hquiet _ hid
      exact List.mem_append_left _ (hdelivered id hold)
    · have hold := (List.mem_append.mp hid).resolve_right fun hid => hquiet _ hid
      exact ⟨(hpublished id name sentAt hold).1,
        List.mem_append_left _ (hpublished id name sentAt hold).2⟩

/-- **Events are made before they are delivered and published.** -/
theorem Run.booked_invariant : TaskInvariant P config (fun _ => Booked) where
  spawn _ participant delay _ := booked_spawn participant delay
  later _ _ _ _ _ htask := htask
  step _ _ _ _ _ htask h := booked_step htask h

end TakBench
