import TakBench.Scenario.Tracking

/-!
# The chronicle of a run

The ledger keeps one entry for each event that is sent, and one for each receiver and each event
that it has seen. The chronicle of a run keeps everything that its participants did, and when.
The ids being new, the ledger can be read off the chronicle: an event is sent since the time at
which it was made, and seen at the time at which it was recorded last.

## Main definitions

* `Happening`, `Run.chronicle`: what the participants of a run did, and when
* `Run.Made`, `Run.Published`, `Run.lastRecorded`: what a chronicle says of an event
* `Run.Kept`: the ledger is what the chronicle says

## Main results

* `Run.Kept.step`: a step keeps the ledger as the chronicle says
* `Run.kept_chronicle`: so does a run
-/

namespace TakBench

variable {P : Platform} {config : AppConfig}

/-! ## The ledger -/

namespace World

variable {w : World} {effects : List Effect} {id : Uuid}

/-- What is published in a step is sent, and so is what was sent before, if an id is published in
one way only. -/
theorem sent_applyAll_iff {name : String} {sentAt : Instant}
    (hunique : ∀ name name' sentAt sentAt',
      w.ledger.sent.lookup id = some (name, sentAt) ∨ .publish id name sentAt ∈ effects →
      w.ledger.sent.lookup id = some (name', sentAt') ∨ .publish id name' sentAt' ∈ effects →
        name' = name ∧ sentAt' = sentAt) :
    (w.applyAll effects).ledger.sent.lookup id = some (name, sentAt) ↔
      w.ledger.sent.lookup id = some (name, sentAt) ∨ .publish id name sentAt ∈ effects := by
  induction effects generalizing w with
  | nil => simp
  | cons e effects ih =>
    rw [applyAll_cons]
    by_cases hpublish : ∃ name₀ sentAt₀, e = .publish id name₀ sentAt₀
    · -- the entry is overwritten, with what it says already if it is there
      obtain ⟨name₀, sentAt₀, rfl⟩ := hpublish
      have hfirst : (w.apply (.publish id name₀ sentAt₀)).ledger.sent.lookup id =
          some (name₀, sentAt₀) := AList.lookup_insert _
      have hsame : ∀ name sentAt, w.ledger.sent.lookup id = some (name, sentAt) ∨
          .publish id name sentAt ∈ .publish id name₀ sentAt₀ :: effects →
          name = name₀ ∧ sentAt = sentAt₀ := fun name sentAt =>
        hunique name₀ name sentAt₀ sentAt (.inr List.mem_cons_self)
      rw [ih, hfirst]
      · constructor
        · rintro (hold | hmem)
          · obtain ⟨rfl, rfl⟩ := Prod.mk.inj (Option.some.inj hold)
            exact .inr List.mem_cons_self
          · exact .inr (List.mem_cons_of_mem _ hmem)
        · intro hcandidate
          obtain ⟨rfl, rfl⟩ := hsame name sentAt hcandidate
          exact .inl rfl
      · rw [hfirst]
        have hcandidate : ∀ name sentAt, some (name₀, sentAt₀) = some (name, sentAt) ∨
            .publish id name sentAt ∈ effects → name = name₀ ∧ sentAt = sentAt₀ := by
          rintro name sentAt (hold | hmem)
          · obtain ⟨rfl, rfl⟩ := Prod.mk.inj (Option.some.inj hold)
            exact ⟨rfl, rfl⟩
          · exact hsame name sentAt (.inr (List.mem_cons_of_mem _ hmem))
        intro name name' sentAt sentAt' h h'
        obtain ⟨rfl, rfl⟩ := hcandidate name sentAt h
        exact hcandidate name' sentAt' h'
    · -- another effect leaves the entry of the id alone
      have hsame : (w.apply e).ledger.sent.lookup id = w.ledger.sent.lookup id := by
        cases e with
        | publish id' name' sentAt' =>
          have hne : id ≠ id' := by
            rintro rfl
            exact hpublish ⟨name', sentAt', rfl⟩
          exact AList.lookup_insert_ne hne
        | _ => rfl
      have hmem : ∀ name sentAt, .publish id name sentAt ∈ e :: effects ↔
          .publish id name sentAt ∈ effects := by
        intro name sentAt
        rw [List.mem_cons, or_iff_right]
        intro heq
        exact hpublish ⟨name, sentAt, heq.symm⟩
      simp only [hmem] at hunique ⊢
      rw [ih, hsame]
      rwa [hsame]

end World

/-! ## Events of a participant -/

namespace Participant

variable {participant : ParticipantConfig} {w : World} {p p' : Participant} {act : ParticipantAct}
  {out : List Effect}

/-- An event of the batch is an earlier one, or it is made now. -/
theorem correlation_step {s' : Sender} {c : Correlation}
    (h : p.step P participant config w act = some (p', out)) (hs' : p'.sender? = some s')
    (hc : c ∈ s'.batch.correlations) :
    (∃ s, p.sender? = some s ∧ c ∈ s.batch.correlations) ∨
      (.generate (some c.id) ∈ out ∧ c.sentAt = w.now) := by
  rcases sender_cases h with ⟨s, s₁, a, rfl, hs, hstep, hs₁, -⟩ |
    ⟨interval, -, -, -, -, -, hs₁, -, -⟩ | ⟨s, -, -, hs₁, -, -⟩ | ⟨-, hsame, -, -⟩
  · obtain rfl := Session.eq_of_alive? (hs₁.symm.trans hs')
    exact (Sender.correlation_step hstep hc).imp_left fun hold => ⟨s, hs, hold⟩
  · obtain rfl := Option.some.inj (hs₁.symm.trans hs')
    cases hc
  · cases hs₁.symm.trans hs'
  · exact .inl ⟨s', hsame.symm.trans hs', hc⟩

/-- A participant publishes its batch, under its name. -/
theorem publish_step {id : Uuid} {name : String} {sentAt : Instant}
    (h : p.step P participant config w act = some (p', out))
    (hpublish : .publish id name sentAt ∈ out) :
    name = participant.id ∧ ∃ s, p.sender? = some s ∧ ∃ c ∈ s.batch.correlations,
      c.id = id ∧ c.sentAt = sentAt := by
  rcases sender_cases h with ⟨s, s', a, rfl, hs, hstep, -, -⟩ |
    ⟨interval, -, -, -, -, -, -, -, rfl⟩ | ⟨s, -, -, -, -, rfl⟩ | ⟨-, -, -, hquiet⟩
  · obtain ⟨-, hname, hc⟩ := (Sender.publish_step_iff hstep).mp hpublish
    exact ⟨hname, s, hs, hc⟩
  · cases hpublish
  · cases hpublish
  · exact (hquiet _ hpublish).elim

end Participant

/-! ## Chronicles -/

/-- What a participant did, and when. -/
structure Happening where
  time : Instant
  participant : String
  effect : Effect

/-- What a participant does at a time. -/
def stamp (now : Instant) (participant : String) (effects : List Effect) : List Happening :=
  effects.map fun effect => ⟨now, participant, effect⟩

theorem mem_stamp {now : Instant} {participant : String} {effects : List Effect} {e : Happening} :
    e ∈ stamp now participant effects ↔
      e.time = now ∧ e.participant = participant ∧ e.effect ∈ effects := by
  obtain ⟨time, name, effect⟩ := e
  constructor
  · intro h
    obtain ⟨effect', hmem, heq⟩ := List.mem_map.mp h
    obtain ⟨rfl, rfl, rfl⟩ := Happening.mk.inj heq
    exact ⟨rfl, rfl, hmem⟩
  · rintro ⟨rfl, rfl, hmem⟩
    exact List.mem_map.mpr ⟨effect, hmem, rfl⟩

namespace Run

/-- What happens in a step. -/
def happenings (P : Platform) (config : AppConfig) (r : Run) : RunAct → List Happening
  | .task i act =>
    match r.tasks[i]? with
    | none => []
    | some task =>
      stamp r.world.now task.participant.id
        ((task.state.step P task.participant config r.world act).elim [] Prod.snd)
  | _ => []

/-- What happens in a run. -/
def chronicle (P : Platform) (config : AppConfig) : Run → List RunAct → List Happening :=
  (machine P config).trace (happenings P config)

/-- A participant made an event. -/
def Made (events : List Happening) (sender : String) (id : Uuid) (made : Instant) : Prop :=
  ⟨made, sender, .generate (some id)⟩ ∈ events

/-- An event was published, as sent by a participant. -/
def Published (events : List Happening) (sender : String) (id : Uuid) : Prop :=
  ∃ e ∈ events, ∃ sentAt, e.effect = .publish id sender sentAt

/-- When a receiver recorded an event for the last time. -/
def lastRecorded (events : List Happening) (receiver : String) (id : Uuid) : Option Instant :=
  (events.reverse.find? fun e => e.effect = .observe receiver id).map (·.time)

variable {r r' r₀ : Run} {act : RunAct} {acts : List RunAct} {events : List Happening}
  {receiver sender : String} {id : Uuid}

/-- An event is recorded last in the last step that records it. -/
theorem lastRecorded_append {now : Instant} {name : String} {effects : List Effect} :
    lastRecorded (events ++ stamp now name effects) receiver id =
      if .observe receiver id ∈ effects then some now else lastRecorded events receiver id := by
  unfold lastRecorded stamp
  rw [List.reverse_append, List.find?_append, ← List.map_reverse, List.find?_map]
  by_cases hmem : .observe receiver id ∈ effects
  · rw [if_pos hmem]
    have hsome : (effects.reverse.find?
        ((fun e : Happening => decide (e.effect = .observe receiver id)) ∘
          fun effect => ⟨now, name, effect⟩)).isSome = true := by
      rw [List.find?_isSome]
      exact ⟨_, List.mem_reverse.mpr hmem, decide_eq_true rfl⟩
    obtain ⟨e, he⟩ := Option.isSome_iff_exists.mp hsome
    rw [he]
    rfl
  · rw [if_neg hmem]
    have hnone : effects.reverse.find?
        ((fun e : Happening => decide (e.effect = .observe receiver id)) ∘
          fun effect => ⟨now, name, effect⟩) = none := by
      rw [List.find?_eq_none]
      intro e he heq
      obtain rfl : e = .observe receiver id := of_decide_eq_true heq
      exact hmem (List.mem_reverse.mp he)
    rw [hnone]
    rfl

/-! ## The ledger of a run -/

/-- The ledger is what the chronicle says: an event is made by one participant at one time, it is
sent since then if it is published, and it is seen when it is recorded last. -/
structure Kept (r : Run) (events : List Happening) : Prop where
  logged : ∀ e ∈ events, ∃ task ∈ r.tasks, task.participant.id = e.participant ∧
    e.effect ∈ task.log
  unique : ∀ id name name' made made', Made events name id made → Made events name' id made' →
    name' = name ∧ made' = made
  held : ∀ task ∈ r.tasks, ∀ s, task.state.sender? = some s → ∀ c ∈ s.batch.correlations,
    Made events task.participant.id c.id c.sentAt
  published : ∀ e ∈ events, ∀ id name sentAt, e.effect = .publish id name sentAt →
    Made events name id sentAt
  sent : ∀ id name sentAt, r.world.ledger.sent.lookup id = some (name, sentAt) ↔
    ∃ e ∈ events, e.effect = .publish id name sentAt
  seen : ∀ receiver id, r.world.ledger.seen.lookup (receiver, id) = lastRecorded events receiver id

/-- What happens in a step of a task. -/
theorem happenings_task {i : ℕ} {task : Task} {a : ParticipantAct} {state : Participant}
    {effects : List Effect} (hget : r.tasks[i]? = some task)
    (hstep : task.state.step P task.participant config r.world a = some (state, effects)) :
    r.happenings P config (.task i a) = stamp r.world.now task.participant.id effects := by
  simp only [happenings, hget, hstep, Option.elim_some]

section Append

variable {now made : Instant} {name sender : String} {effects : List Effect}

theorem made_append : Made (events ++ stamp now name effects) sender id made ↔
    Made events sender id made ∨ made = now ∧ sender = name ∧ .generate (some id) ∈ effects := by
  rw [Made, List.mem_append, mem_stamp]
  rfl

theorem exists_publish_append {sentAt : Instant} :
    (∃ e ∈ events ++ stamp now name effects, e.effect = .publish id sender sentAt) ↔
      (∃ e ∈ events, e.effect = .publish id sender sentAt) ∨
        .publish id sender sentAt ∈ effects := by
  constructor
  · rintro ⟨e, he, heffect⟩
    rcases List.mem_append.mp he with he | he
    · exact .inl ⟨e, he, heffect⟩
    · exact .inr (heffect ▸ (mem_stamp.mp he).2.2)
  · rintro (⟨e, he, heffect⟩ | hmem)
    · exact ⟨e, List.mem_append_left _ he, heffect⟩
    · exact ⟨⟨now, name, _⟩, List.mem_append_right _ (mem_stamp.mpr ⟨rfl, rfl, hmem⟩), rfl⟩

/-- An event that is made now is made by nobody else. -/
theorem unique_append (now : Instant) (name : String)
    (hunique : ∀ id name name' made made', Made events name id made → Made events name' id made' →
      name' = name ∧ made' = made)
    (hnew : ∀ id, .generate (some id) ∈ effects → ∀ name made, ¬ Made events name id made)
    (id : Uuid) (name₁ name₂ : String) (made₁ made₂ : Instant)
    (h₁ : Made (events ++ stamp now name effects) name₁ id made₁)
    (h₂ : Made (events ++ stamp now name effects) name₂ id made₂) :
    name₂ = name₁ ∧ made₂ = made₁ := by
  rcases made_append.mp h₁ with hold₁ | ⟨rfl, rfl, hmem₁⟩
  · rcases made_append.mp h₂ with hold₂ | ⟨rfl, rfl, hmem₂⟩
    · exact hunique id name₁ name₂ made₁ made₂ hold₁ hold₂
    · exact absurd hold₁ (hnew id hmem₂ name₁ made₁)
  · rcases made_append.mp h₂ with hold₂ | ⟨rfl, rfl, hmem₂⟩
    · exact absurd hold₂ (hnew id hmem₁ name₂ made₂)
    · exact ⟨rfl, rfl⟩

end Append

/-- **A step keeps the ledger as the chronicle says.** -/
theorem Kept.step (hr : r.Kept events) (hfresh : r.Fresh act)
    (h : r.step P config act = some r') : r'.Kept (events ++ r.happenings P config act) := by
  rcases step_cases h with ⟨i, a, task, state, effects, rfl, hget, htaskStep, rfl⟩ |
    ⟨hact, hidle⟩
  · rw [happenings_task hget htaskStep]
    have htask := List.mem_of_getElem? hget
    have hlt : i < r.tasks.length := (List.getElem?_eq_some_iff.mp hget).1
    -- an id that is drawn now is in no log, and so not in the chronicle
    have hnew : ∀ id, .generate (some id) ∈ effects → ∀ name made,
        ¬ Made events name id made := by
      intro id hid name made hold
      obtain ⟨utc, rfl⟩ := Participant.exists_of_generate htaskStep hid
      obtain ⟨other, hother, -, hlog⟩ := hr.logged _ hold
      exact hfresh.1 other hother hlog
    have hunique := unique_append r.world.now task.participant.id hr.unique hnew
    -- what is published was made
    have hmade : ∀ id name sentAt,
        (∃ e ∈ events, e.effect = .publish id name sentAt) ∨ .publish id name sentAt ∈ effects →
        Made (events ++ stamp r.world.now task.participant.id effects) name id sentAt := by
      rintro id name sentAt (⟨e, he, heffect⟩ | hmem)
      · exact made_append.mpr (.inl (hr.published e he id name sentAt heffect))
      · obtain ⟨rfl, s, hs, c, hc, rfl, rfl⟩ := Participant.publish_step htaskStep hmem
        exact made_append.mpr (.inl (hr.held task htask s hs c hc))
    refine ⟨?_, hunique, ?_, ?_, ?_, ?_⟩
    · intro e he
      rcases List.mem_append.mp he with he | he
      · exact exists_task_of_step h (hr.logged e he)
      · obtain ⟨-, hname, heffect⟩ := mem_stamp.mp he
        exact ⟨_, List.mem_set hlt _, hname.symm, List.mem_append_right _ heffect⟩
    · intro other hother s hs c hc
      rcases List.mem_or_eq_of_mem_set hother with hother | rfl
      · exact made_append.mpr (.inl (hr.held other hother s hs c hc))
      · rcases Participant.correlation_step htaskStep hs hc with ⟨s₀, hs₀, hc⟩ | ⟨hmem, htime⟩
        · exact made_append.mpr (.inl (hr.held task htask s₀ hs₀ c hc))
        · exact made_append.mpr (.inr ⟨htime, rfl, hmem⟩)
    · intro e he id name sentAt heffect
      exact hmade id name sentAt (exists_publish_append.mp ⟨e, he, heffect⟩)
    · -- an id is published in one way only, since it is made once
      intro id name sentAt
      rw [exists_publish_append, ← hr.sent]
      apply World.sent_applyAll_iff
      intro name name' sentAt sentAt' h h'
      rw [hr.sent] at h h'
      exact hunique id name name' sentAt sentAt' (hmade id name sentAt h)
        (hmade id name' sentAt' h')
    · intro receiver id
      rw [lastRecorded_append, ← hr.seen]
      exact World.seen_applyAll
  · -- the other steps leave the tasks and the ledger alone
    have hnone : r.happenings P config act = [] := by
      cases act with
      | task i a => exact absurd rfl (hact i a)
      | _ => rfl
    rw [hnone, List.append_nil]
    refine ⟨?_, hr.unique, ?_, hr.published, ?_, ?_⟩
    · rw [hidle.tasks]
      exact hr.logged
    · rw [hidle.tasks]
      exact hr.held
    · rw [hidle.ledger]
      exact hr.sent
    · rw [hidle.ledger]
      exact hr.seen

theorem kept_spawn (delays : List Duration) (stop : Bool) : (spawn config delays stop).Kept [] where
  logged e he := by cases he
  unique id name name' made made' h := by cases h
  held task htask s hs := by
    obtain ⟨-, -, delay, hstate⟩ := exists_of_mem_spawn htask
    rw [hstate] at hs
    cases hs
  published e he := by cases he
  sent id name sentAt := by
    refine iff_of_false (fun h => ?_) fun ⟨e, he, _⟩ => by cases he
    cases h
  seen receiver id := rfl

/-- **The ledger is what the chronicle says**, in every run in which the ids are new. -/
theorem kept_chronicle {started : ℤ} {shuffle : ℕ → List Duration → List Duration}
    {options : SafetyOptions} {stop : Bool}
    (hstart : start config started shuffle options stop = .ok r₀)
    (h : (machine P config).exec r₀ acts = some r)
    (hfresh : (machine P config).Along Fresh r₀ acts) : r.Kept (chronicle P config r₀ acts) := by
  obtain ⟨-, delays, rfl⟩ := exists_of_mem_start hstart
  have hkept : r.Kept ([] ++ chronicle P config (spawn config delays stop) acts) :=
    Machine.exec_invariant_trace (fun _ _ _ _ hs hC hstep => hs.step hC hstep) hfresh
      (kept_spawn delays stop) h
  exact hkept

end Run

end TakBench
