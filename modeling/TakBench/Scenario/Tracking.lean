import TakBench.Scenario.Delivery

/-!
# What the ledger knows of the events of a run

An event is made by one task, it is sent in the ledger when it is published, and a receiver sees
it only when it is delivered. The assumptions are on the world outside: a drawn id is new, and
what a receiver reads was delivered.

## Main definitions

* `Run.Fresh`, `Run.Honest`: the assumptions
* `Run.givesUp`: the events that a step gives up
* `Run.Tracked`: what the ledger knows of the events of a run

## Main results

* `Run.Tracked.step`: a step keeps track of the events
-/

namespace TakBench

variable {P : Platform} {config : AppConfig}

/-! ## The ledger -/

namespace World

variable {w : World} {effects : List Effect} {receiver : String} {id : Uuid}

/-- What is recorded in a step is seen now. -/
theorem seen_applyAll : (w.applyAll effects).ledger.seen.lookup (receiver, id) =
    if .observe receiver id ∈ effects then some w.now
    else w.ledger.seen.lookup (receiver, id) := by
  induction effects generalizing w with
  | nil => simp
  | cons e effects ih =>
    rw [applyAll_cons, ih, apply_now]
    cases e with
    | observe receiver' id' =>
      by_cases heq : (receiver, id) = (receiver', id')
      · obtain ⟨rfl, rfl⟩ := Prod.mk.inj heq
        simp [apply]
      · have hne : ¬ (receiver = receiver' ∧ id = id') := by simpa using heq
        simp [apply, AList.lookup_insert_ne heq, hne]
    | _ => simp [apply]

/-- Which events are seen after the effects of a step. -/
theorem isSeen_applyAll : (w.applyAll effects).ledger.isSeen receiver id = true ↔
    w.ledger.isSeen receiver id = true ∨ .observe receiver id ∈ effects := by
  rw [CorrelationLedger.isSeen, CorrelationLedger.isSeen, seen_applyAll]
  split
  · next hmem => simp [hmem]
  · next hmem => simp [hmem]

/-- An event that is published under one name only is sent under this name. -/
theorem sent_applyAll {name : String}
    (hname : ∀ sender sentAt, .publish id sender sentAt ∈ effects → sender = name)
    (h : (∃ sentAt, w.ledger.sent.lookup id = some (name, sentAt)) ∨
      ∃ sentAt, .publish id name sentAt ∈ effects) :
    ∃ sentAt, (w.applyAll effects).ledger.sent.lookup id = some (name, sentAt) := by
  induction effects generalizing w with
  | nil => simpa using h
  | cons e effects ih =>
    rw [applyAll_cons]
    refine ih (fun sender sentAt hmem => hname sender sentAt (List.mem_cons_of_mem e hmem)) ?_
    cases e with
    | publish id' sender sentAt =>
      -- a later publication overwrites the entry, with the same name
      by_cases heq : id = id'
      · subst heq
        obtain rfl := hname sender sentAt List.mem_cons_self
        exact .inl ⟨sentAt, AList.lookup_insert _⟩
      · rcases h with ⟨at', hat⟩ | ⟨at', hmem⟩
        · exact .inl ⟨at', (AList.lookup_insert_ne heq).trans hat⟩
        · rcases List.mem_cons.mp hmem with hmem | hmem
          · exact absurd (Effect.publish.inj hmem).1 heq
          · exact .inr ⟨at', hmem⟩
    | _ =>
      simp only [List.mem_cons, reduceCtorEq, false_or] at h
      exact h

end World

/-! ## The ids in the effects of a participant -/

namespace Participant

variable {participant : ParticipantConfig} {w : World} {p p' : Participant} {act : ParticipantAct}
  {out : List Effect} {id : Uuid}

/-- The reader that is alive. -/
def reader? (p : Participant) : Option Reader := p.session?.bind Session.reader?

/-- Only a tick makes an event, with the id it draws. -/
theorem exists_of_generate (h : p.step P participant config w act = some (p', out))
    (hid : .generate (some id) ∈ out) : ∃ utc, act = .session (.sender (.tick utc id)) := by
  rcases sender_cases h with ⟨s, s', a, rfl, -, hstep, -, -⟩ |
    ⟨interval, -, -, -, -, -, -, -, rfl⟩ | ⟨s, -, -, -, -, rfl⟩ | ⟨-, -, -, hquiet⟩
  · rcases Sender.step_cases hstep with ⟨utc, uuid, rfl, -, effects, rfl, hkeeps⟩ |
      ⟨-, -, -, -, -, hsends⟩
    · have hmade : s.eventId config uuid = some id := by
        rcases List.mem_cons.mp hid with hid | hid
        · exact (Effect.generate.inj hid).symm
        · exact (hkeeps.sends _ hid).elim
      rw [Sender.eventId] at hmade
      split at hmade
      · exact ⟨utc, by rw [Option.some.inj hmade]⟩
      · cases hmade
    · exact (hsends _ hid).elim
  · cases hid
  · cases hid
  · exact (hquiet _ hid).elim

/-- Only a reader records an event, the one it holds. -/
theorem exists_of_observe (h : p.step P participant config w act = some (p', out))
    {receiver : String} (hid : .observe receiver id ∈ out) :
    act = .session (.reader .recorded) ∧
      ∃ reader, p.reader? = some reader ∧ reader.holds? = some id := by
  rcases step_cases h with ⟨session, a, session', hphase, rfl, hsession, -⟩ |
    ⟨-, -, -, -, hconnection⟩
  · rcases Session.step_effects hsession with ⟨-, rfl⟩ | ⟨s, s', a', -, -, hstep⟩ |
      ⟨reader, reader', a', hreader, rfl, hstep⟩
    · cases hid
    · exfalso
      rcases Sender.step_cases hstep with ⟨utc, uuid, -, -, effects, rfl, hkeeps⟩ |
        ⟨-, -, -, -, -, hsends⟩
      · exact hkeeps.sends _ ((List.mem_cons.mp hid).resolve_left (by simp))
      · exact hsends _ hid
    · obtain ⟨-, hholds, rfl⟩ := Reader.step_observe hstep hid
      refine ⟨rfl, reader, ?_, hholds⟩
      rw [reader?, session?, hphase]
      exact hreader
  · exact (hconnection _ hid).elim

end Participant

namespace Run

/-! ## What the world outside is assumed to do -/

/-- An id that is drawn is new: it was not drawn before, and nobody has seen it. -/
def Fresh (r : Run) : RunAct → Prop
  | .task _ (.session (.sender (.tick _ id))) =>
    (∀ task ∈ r.tasks, .generate (some id) ∉ task.log) ∧
      ∀ receiver, r.world.ledger.isSeen receiver id = false
  | _ => True

/-- An event of the run that a receiver reads was delivered. -/
def Honest (r : Run) : RunAct → Prop
  | .task i (.session (.reader .recorded)) =>
    ∀ task reader id, r.tasks[i]? = some task → task.state.reader? = some reader →
      reader.holds? = some id → (∃ maker ∈ r.tasks, .generate (some id) ∈ maker.log) →
      ∃ maker ∈ r.tasks, .deliver id ∈ maker.log
  | _ => True

/-- The unpublished events of a sender that a step gives up. -/
def givesUp (r : Run) (sender : String) : RunAct → List Uuid
  | .task i act =>
    match r.tasks[i]? with
    | none => []
    | some task => if task.participant.id = sender then task.state.givesUp act else []
  | _ => []

/-! ## Keeping track -/

/-- What a step gives up was made by the sender. -/
theorem exists_of_givesUp {r : Run} {sender : String} {act : RunAct} {id : Uuid}
    (hbooked : ∀ task ∈ r.tasks, Booked task) (hid : id ∈ r.givesUp sender act) :
    ∃ task ∈ r.tasks, task.participant.id = sender ∧ .generate (some id) ∈ task.log := by
  cases act with
  | task i a =>
    simp only [givesUp] at hid
    split at hid
    · cases hid
    · next task hget =>
      split at hid
      · next hsender =>
        obtain ⟨s, hs, hholds⟩ := Participant.holds_of_givesUp hid
        have htask := List.mem_of_getElem? hget
        exact ⟨task, htask, hsender, (hbooked task htask).held s hs id hholds⟩
      · cases hid
  | _ => cases hid

/-- The task `i` had an effect. -/
def Has (r : Run) (i : ℕ) (e : Effect) : Prop := ∃ task, r.tasks[i]? = some task ∧ e ∈ task.log

variable {r r' r₀ : Run} {act : RunAct} {acts : List RunAct}

theorem exists_mem_iff {e : Effect} : (∃ task ∈ r.tasks, e ∈ task.log) ↔ ∃ i, r.Has i e := by
  constructor
  · rintro ⟨task, htask, he⟩
    obtain ⟨i, hi⟩ := List.mem_iff_getElem?.mp htask
    exact ⟨i, task, hi, he⟩
  · rintro ⟨i, task, hi, he⟩
    exact ⟨task, List.mem_of_getElem? hi, he⟩

/-- The effects of a run after a step of a task. -/
theorem has_advance {i j : ℕ} {task : Task} {state : Participant} {effects : List Effect}
    {e : Effect} (hget : r.tasks[i]? = some task) :
    (r.advance i task state effects).Has j e ↔ r.Has j e ∨ j = i ∧ e ∈ effects := by
  have hlt : i < r.tasks.length := (List.getElem?_eq_some_iff.mp hget).1
  by_cases hij : i = j
  · subst hij
    simp only [Has, advance, List.getElem?_set_self hlt, hget, Option.some.injEq,
      exists_eq_left', List.mem_append, true_and]
  · simp [Has, advance, List.getElem?_set_ne hij, Ne.symm hij]

/-- What the ledger knows of the events of a run: an event is made by one task, it is sent in the
ledger if it is published, and seen only if it is delivered. An event of the sender that is
delivered is published, or pending, or has been given up and meets `Q`. -/
structure Tracked (sender : String) (Q : Uuid → Prop) (r : Run) : Prop where
  booked : ∀ task ∈ r.tasks, Booked task
  unique : ∀ i j id, r.Has i (.generate (some id)) → r.Has j (.generate (some id)) → i = j
  sent : ∀ i id name sentAt, r.Has i (.publish id name sentAt) →
    ∃ sentAt', r.world.ledger.sent.lookup id = some (name, sentAt')
  seen : ∀ receiver id, r.world.ledger.isSeen receiver id = true →
    (∃ i, r.Has i (.generate (some id))) → ∃ i, r.Has i (.deliver id)
  kept : ∀ (i : ℕ) (task : Task) (id : Uuid), r.tasks[i]? = some task →
    task.participant.id = sender → .deliver id ∈ task.log →
    (∃ name sentAt, .publish id name sentAt ∈ task.log) ∨ task.state.Pending id ∨ Q id

namespace Tracked

variable {sender : String} {Q : Uuid → Prop}

/-- An event is published under one name. -/
theorem name_eq {name name' : String} {id : Uuid} {i j : ℕ} {sentAt sentAt' : Instant}
    (hbooked : ∀ task ∈ r.tasks, Booked task)
    (hunique : ∀ i j id, r.Has i (.generate (some id)) → r.Has j (.generate (some id)) → i = j)
    (h : r.Has i (.publish id name sentAt)) (h' : r.Has j (.publish id name' sentAt')) :
    name = name' := by
  obtain ⟨task, htask, hpublish⟩ := h
  obtain ⟨task', htask', hpublish'⟩ := h'
  obtain ⟨hname, hmade⟩ := (hbooked task (List.mem_of_getElem? htask)).published _ _ _ hpublish
  obtain ⟨hname', hmade'⟩ :=
    (hbooked task' (List.mem_of_getElem? htask')).published _ _ _ hpublish'
  obtain rfl := hunique i j id ⟨task, htask, hmade⟩ ⟨task', htask', hmade'⟩
  obtain rfl := Option.some.inj (htask.symm.trans htask')
  rw [hname, hname']

section Advance

variable {i : ℕ} {a : ParticipantAct} {task : Task} {state : Participant} {effects : List Effect}
  (hget : r.tasks[i]? = some task)
  (hstep : task.state.step P task.participant config r.world a = some (state, effects))
  (hfresh : r.Fresh (.task i a))

include hstep hfresh

/-- The id of an event that is made is new. -/
theorem new_of_generate {id : Uuid} (hid : .generate (some id) ∈ effects) :
    (∀ j, ¬ r.Has j (.generate (some id))) ∧
      ∀ receiver, r.world.ledger.isSeen receiver id = false := by
  obtain ⟨utc, rfl⟩ := Participant.exists_of_generate hstep hid
  refine ⟨fun j hj => ?_, hfresh.2⟩
  obtain ⟨other, hother, hmade⟩ := exists_mem_iff.mpr ⟨j, hj⟩
  exact hfresh.1 other hother hmade

include hget

/-- An event is made once. -/
theorem unique_advance (hr : r.Tracked sender Q) {j k : ℕ} {id : Uuid}
    (hj : (r.advance i task state effects).Has j (.generate (some id)))
    (hk : (r.advance i task state effects).Has k (.generate (some id))) : j = k := by
  rw [has_advance hget] at hj hk
  rcases hj with hj | ⟨rfl, hj⟩
  · rcases hk with hk | ⟨rfl, hk⟩
    · exact hr.unique j k id hj hk
    · exact absurd hj ((new_of_generate hstep hfresh hk).1 j)
  · rcases hk with hk | ⟨rfl, hk⟩
    · exact absurd hk ((new_of_generate hstep hfresh hj).1 k)
    · rfl

/-- An event of the run that is seen was delivered. -/
theorem seen_advance (hr : r.Tracked sender Q) (hhonest : r.Honest (.task i a)) {receiver : String}
    {id : Uuid} (hseen : (r.advance i task state effects).world.ledger.isSeen receiver id = true)
    (hmade : ∃ j, (r.advance i task state effects).Has j (.generate (some id))) :
    ∃ k, r.Has k (.deliver id) := by
  obtain ⟨j, hmade⟩ := hmade
  rcases (has_advance hget).mp hmade with hmade | ⟨-, hmade⟩
  · rcases World.isSeen_applyAll.mp hseen with hseen | hseen
    · exact hr.seen receiver id hseen ⟨j, hmade⟩
    · -- the step is the recording of an event that was made before
      obtain ⟨rfl, reader, hreader, hholds⟩ := Participant.exists_of_observe hstep hseen
      exact exists_mem_iff.mp
        (hhonest task reader id hget hreader hholds (exists_mem_iff.mpr ⟨j, hmade⟩))
  · rcases World.isSeen_applyAll.mp hseen with hseen | hseen
    · rw [(new_of_generate hstep hfresh hmade).2 receiver] at hseen
      cases hseen
    · -- a step of a reader makes no event
      obtain ⟨rfl, -⟩ := Participant.exists_of_observe hstep hseen
      obtain ⟨utc, hact⟩ := Participant.exists_of_generate hstep hmade
      cases hact

omit hget hfresh

/-- An event of the sender that is delivered is not lost by its own step. -/
theorem kept_advance {id : Uuid} (hgives : ∀ id ∈ task.state.givesUp a, Q id)
    (hkept : .deliver id ∈ task.log →
      (∃ name sentAt, .publish id name sentAt ∈ task.log) ∨ task.state.Pending id ∨ Q id)
    (hdeliver : .deliver id ∈ task.log ++ effects) :
    (∃ name sentAt, .publish id name sentAt ∈ task.log ++ effects) ∨ state.Pending id ∨ Q id := by
  have hold : (.deliver id ∈ effects ∨ task.state.Pending id) ∨
      ((∃ name sentAt, .publish id name sentAt ∈ task.log) ∨ Q id) := by
    rcases List.mem_append.mp hdeliver with hdeliver | hdeliver
    · rcases hkept hdeliver with hpublish | hpending | hQ
      · exact .inr (.inl hpublish)
      · exact .inl (.inr hpending)
      · exact .inr (.inr hQ)
    · exact .inl (.inl hdeliver)
  rcases hold with hpending | ⟨name, sentAt, hpublish⟩ | hQ
  · -- a step publishes what is pending, or gives it up, or leaves it pending
    rcases Participant.step_unpublished hstep hpending with ⟨sentAt, hpublish⟩ | hpending | hid
    · exact .inl ⟨_, sentAt, List.mem_append_right _ hpublish⟩
    · exact .inr (.inl hpending)
    · exact .inr (.inr (hgives id hid))
  · exact .inl ⟨name, sentAt, List.mem_append_left _ hpublish⟩
  · exact .inr (.inr hQ)

end Advance

/-- A step of nobody's leaves the events alone. -/
theorem of_idle (hr : r.Tracked sender Q) (hbooked : ∀ task ∈ r'.tasks, Booked task)
    (hidle : r.Idle r') : r'.Tracked sender Q := by
  have hhas : ∀ j e, r'.Has j e ↔ r.Has j e := fun j e => by rw [Has, Has, hidle.tasks]
  refine ⟨hbooked, fun j k id hj hk => ?_, fun j id name sentAt hj => ?_, ?_, ?_⟩
  · exact hr.unique j k id ((hhas _ _).mp hj) ((hhas _ _).mp hk)
  · rw [hidle.ledger]
    exact hr.sent j id name sentAt ((hhas _ _).mp hj)
  · rintro receiver id hseen ⟨j, hj⟩
    rw [hidle.ledger] at hseen
    obtain ⟨k, hk⟩ := hr.seen receiver id hseen ⟨j, (hhas _ _).mp hj⟩
    exact ⟨k, (hhas _ _).mpr hk⟩
  · rw [hidle.tasks]
    exact hr.kept

/-- **A step keeps track of the events.** -/
theorem step (hr : r.Tracked sender Q) (hfresh : r.Fresh act) (hhonest : r.Honest act)
    (hgives : ∀ id ∈ r.givesUp sender act, Q id) (h : r.step P config act = some r') :
    r'.Tracked sender Q := by
  have hbooked := booked_invariant.run_step hr.booked h
  rcases step_cases h with ⟨i, a, task, state, effects, rfl, hget, hstep, rfl⟩ | ⟨-, hidle⟩
  · refine ⟨hbooked, fun j k id => unique_advance hget hstep hfresh hr, ?_, ?_, ?_⟩
    · intro j id name sentAt hj
      refine World.sent_applyAll (fun other sentAt' hmem => ?_) ?_
      · exact name_eq hbooked (fun j k id => unique_advance hget hstep hfresh hr)
          ((has_advance hget).mpr (.inr ⟨rfl, hmem⟩)) hj
      · rcases (has_advance hget).mp hj with hj | ⟨-, hj⟩
        · exact .inl (hr.sent j id name sentAt hj)
        · exact .inr ⟨sentAt, hj⟩
    · intro receiver id hseen hmade
      obtain ⟨k, hk⟩ := seen_advance hget hstep hfresh hr hhonest hseen hmade
      exact ⟨k, (has_advance hget).mpr (.inl hk)⟩
    · intro j other id hj hsender hdeliver
      by_cases hij : i = j
      · -- what the step gives up meets the condition
        subst hij
        have hlt : i < r.tasks.length := (List.getElem?_eq_some_iff.mp hget).1
        rw [advance, List.getElem?_set_self hlt] at hj
        obtain rfl := Option.some.inj hj
        have hgivesUp : r.givesUp sender (.task i a) = task.state.givesUp a := by
          simp only [givesUp, hget]
          exact if_pos hsender
        exact kept_advance hstep (hgivesUp ▸ hgives) (hr.kept i task id hget hsender) hdeliver
      · rw [advance, List.getElem?_set_ne hij] at hj
        exact hr.kept j other id hj hsender hdeliver
  · exact hr.of_idle hbooked hidle

theorem spawn (delays : List Duration) (stop : Bool) :
    (Run.spawn config delays stop).Tracked sender Q := by
  have hnone : ∀ i e, ¬ (Run.spawn config delays stop).Has i e := by
    rintro i e ⟨task, htask, he⟩
    rw [(exists_of_mem_spawn (List.mem_of_getElem? htask)).2.1] at he
    cases he
  refine ⟨fun task htask => ?_, fun i j id hi => absurd hi (hnone i _),
    fun i id name sentAt hi => absurd hi (hnone i _),
    fun receiver id _ ⟨i, hi⟩ => absurd hi (hnone i _),
    fun i task id hget _ hid => absurd ⟨task, hget, hid⟩ (hnone i _)⟩
  obtain ⟨participant, state, log⟩ := task
  obtain ⟨hparticipant, hlog, delay, hstate⟩ := exists_of_mem_spawn htask
  simp only at hparticipant hlog hstate
  subst hlog hstate
  exact booked_spawn participant delay

end Tracked

end Run

end TakBench
