import TakBench.Scenario.Routing

/-!
# Samples of the delivery latency

A receiver that sees an event for the first time records a sample of the delivery latency, if the
ledger knows by then that the event is sent. The sender tells the ledger only after its write. So
an event that is seen before has no sample, and its later copies are duplicates.

## Main definitions

* `CorrelationLedger.observed`: the events that are sent and seen, by receiver
* `World.samples`: the samples of the delivery latency
* `Run.Unseen`: nobody has seen what a step publishes

## Main results

* `Participant.delivery_cases`: a step publishes, records or leaves the deliveries alone
* `Run.samples_eq_iff`: there is a sample for each delivery that is observed exactly when no event
  is published that was seen
-/

namespace TakBench

variable {P : Platform} {config : AppConfig} {participant : ParticipantConfig} {w w' : World}
  {out : List Effect} {id : Uuid}

/-- A count that grows stays the same when nothing new is counted. -/
theorem countP_eq_iff {α : Type*} {p q : α → Bool} {l : List α} (h : ∀ x ∈ l, p x → q x) :
    l.countP p = l.countP q ↔ ∀ x ∈ l, q x → p x := by
  induction l with
  | nil => simp
  | cons x l ih =>
    obtain ⟨hx, hl⟩ := List.forall_mem_cons.mp h
    have hle : l.countP p ≤ l.countP q := List.countP_mono_left hl
    rw [List.forall_mem_cons, ← ih hl, List.countP_cons, List.countP_cons]
    cases hp : p x with
    | true => simp [hx hp]
    | false =>
      cases hq : q x with
      | true =>
        simp only [Bool.false_eq_true, if_false, if_true, imp_false, not_true, false_and,
          iff_false]
        omega
      | false => simp

/-- A count over the keys of a map in which a value is set. -/
theorem countP_keys_insert {α : Type*} [DecidableEq α] {β : α → Type*} {p : α → Bool}
    (s : AList β) (a : α) (b : β a) :
    (s.insert a b).keys.countP p = s.keys.countP p + if a ∉ s.keys ∧ p a then 1 else 0 := by
  rw [AList.keys_insert]
  by_cases ha : a ∈ s.keys
  · rw [← (List.perm_cons_erase ha).countP_eq]
    simp [ha]
  · rw [List.erase_of_not_mem ha, List.countP_cons]
    simp [ha]

/-! ## Deliveries -/

/-- Is an event known to be sent? -/
def CorrelationLedger.isSent (state : CorrelationLedger) (id : Uuid) : Bool :=
  (state.sent.lookup id).isSome

/-- The number of receivers and events they have seen, of the events that are sent. -/
def CorrelationLedger.observed (state : CorrelationLedger) : ℕ :=
  state.seen.keys.countP fun key => state.isSent key.2

/-- The number of samples of the delivery latency. -/
def World.samples (w : World) : ℕ := w.recorded.countP fun sample => sample.1 = .delivery

/-- Neither the ledger nor the samples of the delivery latency change. -/
def Effect.KeepsDeliveries : Effect → Prop
  | .record histogram _ => histogram ≠ .delivery
  | .publish _ _ _ | .observe _ _ => False
  | _ => True

theorem Effect.CountsEvents.keepsDeliveries {e : Effect} (h : e.CountsEvents) :
    e.KeepsDeliveries := by
  cases e with
  | add counter n => trivial
  | _ => exact h.elim

theorem Effect.OfConnection.keepsDeliveries {e : Effect} (h : e.OfConnection) :
    e.KeepsDeliveries := by
  cases e with
  | record histogram elapsed => exact h
  | publish id sender sentAt => exact h.elim
  | observe receiver id => exact h.elim
  | _ => trivial

namespace World

/-- Effects that keep the deliveries. -/
theorem applyAll_of_keepsDeliveries (h : ∀ e ∈ out, e.KeepsDeliveries) :
    (w.applyAll out).ledger = w.ledger ∧ (w.applyAll out).samples = w.samples := by
  induction out generalizing w with
  | nil => exact ⟨rfl, rfl⟩
  | cons e out ih =>
    obtain ⟨he, hout⟩ := List.forall_mem_cons.mp h
    obtain ⟨hledger, hsamples⟩ := ih (w := w.apply e) hout
    rw [applyAll_cons, hledger, hsamples]
    cases e with
    | record histogram elapsed =>
      have hother : histogram ≠ .delivery := he
      exact ⟨rfl, by simp [apply, samples, hother]⟩
    | publish id sender sentAt => exact he.elim
    | observe receiver id => exact he.elim
    | _ => exact ⟨rfl, rfl⟩

/-- The events of a batch are published. -/
theorem applyAll_publish (sender : String) (batch : List Correlation) :
    (w.applyAll (batch.map fun c => .publish c.id sender c.sentAt)).ledger.seen = w.ledger.seen ∧
      (w.applyAll (batch.map fun c => .publish c.id sender c.sentAt)).samples = w.samples ∧
      ∀ id, (w.applyAll (batch.map fun c => .publish c.id sender c.sentAt)).ledger.isSent id =
        true ↔ w.ledger.isSent id = true ∨ id ∈ batch.map (·.id) := by
  induction batch generalizing w with
  | nil => simp
  | cons c batch ih =>
    obtain ⟨hseen, hsamples, hsent⟩ := ih (w := w.apply (.publish c.id sender c.sentAt))
    rw [List.map_cons, applyAll_cons]
    refine ⟨hseen, hsamples, fun id => ?_⟩
    rw [hsent id, List.map_cons, List.mem_cons, ← or_assoc]
    refine or_congr_left ?_
    by_cases heq : id = c.id
    · subst heq
      simp [apply, CorrelationLedger.isSent, AList.lookup_insert]
    · simp [apply, CorrelationLedger.isSent, AList.lookup_insert_ne heq, heq]

end World

namespace CorrelationLedger

variable {state state' : CorrelationLedger}

theorem mem_keys_seen {receiver : String} :
    (receiver, id) ∈ state.seen.keys ↔ state.isSeen receiver id = true := by
  rw [isSeen, AList.lookup_isSome]
  rfl

/-- More events are known to be sent: the pairs observed are the same exactly when nobody has seen
what is new. -/
theorem observed_of_sent (hseen : state'.seen = state.seen)
    (hsent : ∀ id, state.isSent id = true → state'.isSent id = true) :
    state.observed ≤ state'.observed ∧
      (state.observed = state'.observed ↔ ∀ id, state'.isSent id = true →
        state.isSent id = false → ∀ receiver, state.isSeen receiver id = false) := by
  rw [observed, observed, hseen]
  have hgrows : ∀ key ∈ state.seen.keys, state.isSent key.2 = true → state'.isSent key.2 = true :=
    fun key _ => hsent key.2
  refine ⟨List.countP_mono_left hgrows, ?_⟩
  rw [countP_eq_iff hgrows]
  constructor
  · intro h id hnew hold receiver
    by_contra hseen
    rw [Bool.not_eq_false] at hseen
    rw [h _ (mem_keys_seen.mpr hseen) hnew] at hold
    cases hold
  · rintro h ⟨receiver, id⟩ hkey hnew
    by_contra hold
    rw [Bool.not_eq_true] at hold
    rw [mem_keys_seen, h id hnew hold receiver] at hkey
    cases hkey

/-- A receiver sees an event. -/
theorem observed_insert (receiver : String) (at' : Instant) :
    { state with seen := state.seen.insert (receiver, id) at' }.observed =
      state.observed +
        if state.isSeen receiver id = false ∧ state.isSent id = true then 1 else 0 := by
  have hnew : (receiver, id) ∉ state.seen.keys ↔ state.isSeen receiver id = false := by
    rw [mem_keys_seen, Bool.not_eq_true]
  simp only [observed, countP_keys_insert, hnew]
  rfl

end CorrelationLedger

/-- **A receiver that records an event** takes a sample exactly when one more delivery is
observed. -/
theorem Reader.record_samples :
    (w.applyAll (record participant w id)).samples + w.ledger.observed =
      (w.applyAll (record participant w id)).ledger.observed + w.samples := by
  have hobserved : { w.ledger with
      seen := w.ledger.seen.insert (participant.id, id) w.now }.observed = _ :=
    CorrelationLedger.observed_insert participant.id w.now
  rw [record]
  cases hseen : w.ledger.isSeen participant.id id with
  | true =>
    -- a copy: one more duplicate
    rw [hseen] at hobserved
    have hlookup : (w.ledger.seen.lookup (participant.id, id)).isSome = true := hseen
    simp only [hlookup, if_true, World.applyAll_cons, World.applyAll_nil, World.apply]
    simp only [Bool.true_eq_false, false_and, if_false] at hobserved
    rw [hobserved]
    exact Nat.add_comm _ _
  | false =>
    rw [hseen] at hobserved
    have hlookup : (w.ledger.seen.lookup (participant.id, id)).isSome = false := hseen
    simp only [hlookup, Bool.false_eq_true, if_false]
    cases hsent : w.ledger.sent.lookup id with
    | none =>
      -- an event that is not known to be sent takes no sample
      have hunsent : w.ledger.isSent id = false := by simp [CorrelationLedger.isSent, hsent]
      simp only [World.applyAll_cons, World.applyAll_nil, World.apply]
      simp only [hunsent, Bool.false_eq_true, and_false, if_false] at hobserved
      rw [hobserved]
      exact Nat.add_comm _ _
    | some event =>
      have hknown : w.ledger.isSent id = true := by simp [CorrelationLedger.isSent, hsent]
      simp only [World.applyAll_cons, World.applyAll_nil, World.apply, World.samples,
        List.countP_append]
      simp only [hknown, and_self, if_true] at hobserved
      rw [hobserved]
      simp
      omega

/-! ## The steps of a participant -/

/-- A sender publishes its batch, or leaves the deliveries alone. -/
theorem Sender.delivery_cases {s s' : Sender} {act : SenderAct}
    (h : s.step P participant config w act = some (s', out)) :
    (act = .published ∧ ∃ effects, out = s.publish participant ++ effects ∧
      ∀ e ∈ effects, e.CountsEvents) ∨
    (act ≠ .published ∧ ∀ e ∈ out, e.KeepsDeliveries) := by
  cases steps_of_step h with
  | tick utc uuid hphase hdue hp =>
    obtain ⟨-, rfl⟩ := Prod.mk.inj hp
    have hkeeps := s.keeps_dispatch P participant config w.now utc uuid
    refine .inr ⟨by simp, List.forall_mem_cons.mpr ⟨trivial, ?_⟩⟩
    exact fun e he => (hkeeps.effects e he).keepsDeliveries
  | stopped _ _ hp | deadline _ _ hp =>
    obtain ⟨-, rfl⟩ := Prod.mk.inj hp
    exact .inr ⟨by simp, fun e he => (s.keeps_leave.effects e he).keepsDeliveries⟩
  | flush act write next outcome bytes hphase hwrite hp =>
    obtain ⟨-, rfl⟩ := Prod.mk.inj hp
    refine .inr ⟨by simp, ?_⟩
    intro e he
    rw [List.cons_append, List.mem_cons, List.mem_append] at he
    rcases he with rfl | he | he
    · trivial
    · -- a delivery is not known to the ledger
      obtain ⟨c, -, rfl⟩ := List.mem_map.mp he
      trivial
    · exact ((s.keeps_flushOutcome next outcome).effects e he).keepsDeliveries
  | frame act write outcome bytes hphase hwrite hp =>
    obtain ⟨-, rfl⟩ := Prod.mk.inj hp
    refine .inr ⟨by simp, List.forall_mem_cons.mpr ⟨trivial, ?_⟩⟩
    exact fun e he => ((s.keeps_frameOutcome config outcome).effects e he).keepsDeliveries
  | publish next hphase hp =>
    obtain ⟨-, rfl⟩ := Prod.mk.inj hp
    exact .inl ⟨rfl, _, rfl, (keeps_afterFlush config { s with batch := {} } w.now next).effects⟩

namespace Participant

variable {p p' : Participant} {act : ParticipantAct}

/-- The events that a step publishes. -/
def publishes (p : Participant) : ParticipantAct → List Uuid
  | .session (.sender .published) => p.sender?.elim [] fun s => s.batch.correlations.map (·.id)
  | _ => []

theorem publishes_of_ne (h : act ≠ .session (.sender .published)) : p.publishes act = [] := by
  unfold publishes
  split
  · exact absurd rfl h
  · rfl

/-- **A step of a participant** publishes a batch, records an event, or leaves the deliveries
alone. -/
theorem delivery_cases (h : p.step P participant config w act = some (p', out)) :
    (∃ (s : Sender) (effects : List Effect), p.publishes act = s.batch.correlations.map (·.id) ∧
      out = s.publish participant ++ effects ∧ ∀ e ∈ effects, e.CountsEvents) ∨
    (p.publishes act = [] ∧ ∃ id, out = Reader.record participant w id) ∨
    (p.publishes act = [] ∧ ∀ e ∈ out, e.KeepsDeliveries) := by
  rcases step_cases h with ⟨session, a, session', hphase, rfl, hsession, -⟩ |
    ⟨hact, -, -, -, hconnection⟩
  · have hsender : p.sender? = session.sender? := by
      simp only [sender?, session?, hphase, Option.bind_some]
    -- a step without effects, of the sender, or of the reader
    rcases Session.step_effects hsession with ⟨hne, rfl⟩ | ⟨s, s', a', hs, rfl, hstep⟩ |
      ⟨reader, reader', a', -, rfl, hstep⟩
    · exact .inr (.inr ⟨publishes_of_ne (by simpa using hne .published), by simp⟩)
    · rcases Sender.delivery_cases hstep with ⟨rfl, effects, rfl, hcounts⟩ | ⟨hne, hkeeps⟩
      · refine .inl ⟨s, effects, ?_, rfl, hcounts⟩
        rw [publishes, hsender, hs]
        rfl
      · exact .inr (.inr ⟨publishes_of_ne (by simpa using hne), hkeeps⟩)
    · have hnone : p.publishes (.session (.reader a')) = [] := rfl
      rcases Reader.step_effects hstep with ⟨id, -, -, rfl⟩ | rfl | rfl | rfl
      · exact .inr (.inl ⟨hnone, id, rfl⟩)
      · exact .inr (.inr ⟨hnone, by simp⟩)
      · exact .inr (.inr ⟨hnone, by simp [Effect.KeepsDeliveries]⟩)
      · exact .inr (.inr ⟨hnone, by simp [Effect.KeepsDeliveries]⟩)
  · exact .inr (.inr ⟨publishes_of_ne (hact _), fun e he => (hconnection e he).keepsDeliveries⟩)

end Participant

/-! ## The samples of a run -/

namespace Run

variable {r r' r₀ : Run} {act : RunAct} {acts : List RunAct}

/-- The events that a step publishes. -/
def publishes (r : Run) : RunAct → List Uuid
  | .task i act => r.tasks[i]?.elim [] fun task => task.state.publishes act
  | _ => []

/-- No receiver has seen what a step publishes, unless it was published before. -/
def Unseen (r : Run) (act : RunAct) : Prop :=
  ∀ id ∈ r.publishes act, r.world.ledger.isSent id = false →
    ∀ receiver, r.world.ledger.isSeen receiver id = false

/-- **A step takes a sample for each delivery that it makes observed**, unless it publishes what
was seen. -/
theorem deliveries_step (h : r.step P config act = some r') :
    r.world.ledger.observed + r'.world.samples ≤ r'.world.ledger.observed + r.world.samples ∧
      (r.world.ledger.observed + r'.world.samples =
        r'.world.ledger.observed + r.world.samples ↔ r.Unseen act) := by
  rcases step_cases h with ⟨i, a, task, state, effects, rfl, hget, hstep, rfl⟩ | ⟨hact, hidle⟩
  · have hpublishes : r.publishes (.task i a) = task.state.publishes a := by
      rw [publishes, hget]
      rfl
    rw [Unseen, hpublishes]
    rcases Participant.delivery_cases hstep with ⟨s, effects, hbatch, rfl, hcounts⟩ |
      ⟨hnone, id, rfl⟩ | ⟨hnone, hkeeps⟩
    · -- the batch is published
      obtain ⟨hseen, hsamples, hsent⟩ :=
        World.applyAll_publish (w := r.world) task.participant.id s.batch.correlations
      obtain ⟨hledger, hsamples'⟩ := World.applyAll_of_keepsDeliveries
        (w := r.world.applyAll (s.publish task.participant))
        fun e he => (hcounts e he).keepsDeliveries
      have hworld : (r.advance i task state (s.publish task.participant ++ effects)).world =
          (r.world.applyAll (s.publish task.participant)).applyAll effects :=
        List.foldl_append
      obtain ⟨hle, hiff⟩ := CorrelationLedger.observed_of_sent hseen
        fun id hid => (hsent id).mpr (.inl hid)
      rw [hworld, hledger, hsamples', Sender.publish, hsamples, hbatch]
      refine ⟨Nat.add_le_add_right hle _, ?_⟩
      rw [Nat.add_right_cancel_iff, hiff]
      constructor
      · intro hunseen id hid hold
        exact hunseen id ((hsent id).mpr (.inr hid)) hold
      · intro hunseen id hnew hold
        refine hunseen id (((hsent id).mp hnew).resolve_left ?_) hold
        rw [hold]
        exact Bool.false_ne_true
    · -- an event is recorded
      have hrecord : (r.world.applyAll (Reader.record task.participant r.world id)).samples +
          r.world.ledger.observed = _ := Reader.record_samples
      rw [advance, hnone]
      simp only [List.not_mem_nil, false_imp_iff, implies_true, iff_true]
      omega
    · obtain ⟨hledger, hsamples⟩ := World.applyAll_of_keepsDeliveries (w := r.world) hkeeps
      rw [advance, hnone, hledger, hsamples]
      simp
  · have hnone : r.publishes act = [] := by
      cases act with
      | task i a => exact absurd rfl (hact i a)
      | _ => rfl
    rw [Unseen, hnone, hidle.ledger, World.samples, World.samples, hidle.recorded]
    simp

/-- **There is a sample of the delivery latency for each observed delivery** exactly when no event
is published that a receiver has seen. -/
theorem samples_eq_iff {started : ℤ} {shuffle : ℕ → List Duration → List Duration}
    {options : SafetyOptions} {stop : Bool}
    (hstart : start config started shuffle options stop = .ok r₀)
    (h : (machine P config).exec r₀ acts = some r) :
    r.world.samples = r.world.ledger.observed ↔ (machine P config).Along Unseen r₀ acts := by
  obtain ⟨-, delays, rfl⟩ := exists_of_mem_start hstart
  have hobserved : (spawn config delays stop).world.ledger.observed = 0 := rfl
  have hsamples : (spawn config delays stop).world.samples = 0 := rfl
  -- the samples never run ahead of the deliveries, and fall behind at such an event only
  have hgap := Machine.exec_gap_iff (m := machine P config) (fun r => r.world.samples)
    (fun r => r.world.ledger.observed) (fun _ _ _ hstep => (deliveries_step hstep).1)
    (fun _ _ _ hstep => (deliveries_step hstep).2) h
  rw [← hgap, hobserved, hsamples]
  omega

/-! ## Two runs with one delivery -/

namespace Leak

variable {raw : String}

/-- The event is published, and then read. -/
theorem exists_sampled (hcut : Cut (text P 5) (text P 6)) (hcut' : Cut (text P 7) (text P 8))
    (hpush : ∀ since, (idle (.reading since)).push P (text P 7) = idle (.recording [raw]))
    (hinspect : ∃ event, inspectEvent P raw = .ok event ∧ event.correlationId = some 7) :
    ∃ acts r r', Follows P (spawn forbidding [0, 0] false) acts r ∧
      r.step P forbidding .evaluate = some r' ∧ r'.world.samples = 1 ∧
      r'.world.ledger.observed = 1 := by
  obtain ⟨acts, hsecond⟩ := follows_second hcut hcut'
  have hsent := hsecond.append (follows_completing hcut')
  have hread := hsent.append (follows_reading hcut'.ne_nil (hcut'.first.trans (by decide))
    (hpush _) hinspect (by simp))
  obtain ⟨r, r', hrun, heval, -, hledger, hrecorded, -⟩ :=
    (hread.append (follows_expiring rfl)).exists_joined (d := 0) rfl
  refine ⟨_, r, r', hrun, heval, ?_, ?_⟩
  · rw [World.samples, hrecorded]
    rfl
  · rw [hledger]
    rfl

/-- The event is read, and then published with its batch. -/
theorem exists_raced (hcut : Cut (text P 5) (text P 6)) (hcut' : Cut (text P 7) (text P 8))
    (hpush : ∀ since, (idle (.reading since)).push P (text P 7) = idle (.recording [raw]))
    (hinspect : ∃ event, inspectEvent P raw = .ok event ∧ event.correlationId = some 7) :
    ∃ acts r r', Follows P (spawn forbidding [0, 0] false) acts r ∧
      r.step P forbidding .evaluate = some r' ∧ r'.world.samples = 0 ∧
      r'.world.ledger.observed = 1 := by
  obtain ⟨acts, hsecond⟩ := follows_second hcut hcut'
  have hread := hsecond.append (follows_reading hcut'.ne_nil (hcut'.first.trans (by decide))
    (hpush _) hinspect (by simp))
  have hsent := hread.append (follows_completing hcut')
  obtain ⟨r, r', hrun, heval, -, hledger, hrecorded, -⟩ :=
    (hsent.append (follows_expiring rfl)).exists_joined (d := 0) rfl
  refine ⟨_, r, r', hrun, heval, ?_, ?_⟩
  · rw [World.samples, hrecorded]
    rfl
  · rw [hledger]
    rfl

end Leak

/-- A run in which the event is published before it is read. -/
theorem samples_eq_iff_published :
    ∃ acts r', (machine Reference.platform Leak.forbidding).exec
        (spawn Leak.forbidding [0, 0] false) (acts ++ [.evaluate]) = some r' ∧
      r'.world.ledger.observed = 1 ∧
      (machine Reference.platform Leak.forbidding).Along Unseen
        (spawn Leak.forbidding [0, 0] false) (acts ++ [.evaluate]) := by
  obtain ⟨hpush, hinspect⟩ := Leak.reference_reading 7
  obtain ⟨acts, r, r', ⟨hexec, -, -⟩, hend, hsamples, hobserved⟩ :=
    Leak.exists_sampled Leak.cut_batches.1 Leak.cut_batches.2 hpush hinspect
  have hlast : (machine Reference.platform Leak.forbidding).step r .evaluate = some r' := hend
  have hrun := Machine.exec_append hexec (Machine.exec_step hlast Machine.exec_nil)
  exact ⟨acts, r', hrun, hobserved,
    (samples_eq_iff Leak.start_forbidding hrun).mp (hsamples.trans hobserved.symm)⟩

/-- A run of an accepted configuration in which an event is read before it is published: at its
end, the delivery is observed, and there is no sample of its latency. -/
theorem sample_lost :
    start Leak.forbidding 0 (fun _ delays => delays) {} false =
        .ok (spawn Leak.forbidding [0, 0] false) ∧
      ∃ acts r r', (machine Reference.platform Leak.forbidding).exec
          (spawn Leak.forbidding [0, 0] false) acts = some r ∧
        r.step Reference.platform Leak.forbidding .evaluate = some r' ∧
        r'.world.samples = 0 ∧ r'.world.ledger.observed = 1 := by
  obtain ⟨hpush, hinspect⟩ := Leak.reference_reading 7
  obtain ⟨acts, r, r', ⟨hexec, -, -⟩, hend, hsamples, hobserved⟩ :=
    Leak.exists_raced Leak.cut_batches.1 Leak.cut_batches.2 hpush hinspect
  exact ⟨Leak.start_forbidding, acts, r, r', hexec, hend, hsamples, hobserved⟩

end Run

end TakBench
