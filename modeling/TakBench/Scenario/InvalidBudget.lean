import TakBench.Protocol.Reference
import TakBench.Safety
import TakBench.Scenario.Participant

/-!
# The budget of invalid events

The counter that limits the invalid events is a 32-bit counter of one call of `send_positions`, so
it starts again on every connection and when it wraps. A connection that makes `n` events makes
`invalidAmong m n` invalid ones, and the budget `m` of a participant holds exactly when all
connections together make at most `m` events, or only one makes any and its counter does not wrap.

## Main definitions

* `invalidAmong m n`: the invalid events among the first `n` of a connection
* `connectionTicks`: the ticks of each connection of a run
* `WithinBudget`

## Main results

* `Participant.total_invalid`: the invalid events of a run, connection by connection
* `Participant.invalid_le_iff`: the budget holds exactly for the runs within it
-/

namespace TakBench

variable {P : Platform} {participant : ParticipantConfig} {config : AppConfig}

/-! ## The events of one connection -/

/-- The invalid events among the first `n` events of a connection. -/
def invalidAmong (m n : ℕ) : ℕ := n / 2 ^ 32 * m + min (n % 2 ^ 32) m

theorem invalidAmong_zero (m : ℕ) : invalidAmong m 0 = 0 := by simp [invalidAmong]

/-- The event after `n` others is invalid if the counter is below the bound. -/
theorem invalidAmong_succ {m : ℕ} (hm : m < 2 ^ 32) (n : ℕ) :
    invalidAmong m (n + 1) = invalidAmong m n + if n % 2 ^ 32 < m then 1 else 0 := by
  rw [invalidAmong, invalidAmong]
  by_cases hwrap : n % 2 ^ 32 + 1 = 2 ^ 32
  · have hdiv : (n + 1) / 2 ^ 32 = n / 2 ^ 32 + 1 := by omega
    have hmod : (n + 1) % 2 ^ 32 = 0 := by omega
    rw [hdiv, hmod, Nat.add_mul, if_neg (by omega)]
    omega
  · have hdiv : (n + 1) / 2 ^ 32 = n / 2 ^ 32 := by omega
    have hmod : (n + 1) % 2 ^ 32 = n % 2 ^ 32 + 1 := by omega
    rw [hdiv, hmod]
    split <;> omega

theorem invalidAmong_of_le {m n : ℕ} (hm : m < 2 ^ 32) (hn : n ≤ m) : invalidAmong m n = n := by
  rw [invalidAmong, Nat.div_eq_of_lt (by omega), Nat.mod_eq_of_lt (by omega)]
  omega

/-- Past the bound, a connection has used up the budget. -/
theorem le_invalidAmong {m n : ℕ} (hn : m ≤ n) : m ≤ invalidAmong m n := by
  rw [invalidAmong]
  by_cases hsmall : n < 2 ^ 32
  · rw [Nat.div_eq_of_lt hsmall, Nat.mod_eq_of_lt hsmall]
    omega
  · have hone : 1 ≤ n / 2 ^ 32 := by omega
    exact (Nat.le_mul_of_pos_left m hone).trans (Nat.le_add_right _ _)

/-- A connection is within the budget until its counter has wrapped. -/
theorem invalidAmong_le_iff {m n : ℕ} (hpos : 0 < m) : invalidAmong m n ≤ m ↔ n ≤ 2 ^ 32 := by
  rw [invalidAmong]
  rcases Nat.lt_trichotomy n (2 ^ 32) with hlt | rfl | hgt
  · rw [Nat.div_eq_of_lt hlt, Nat.mod_eq_of_lt hlt]
    omega
  · simp
  · have hmore : ∀ q r, 1 ≤ q → (q = 1 → 0 < r) → m < q * m + min r m := by
      intro q r hq hr
      rcases Nat.lt_or_ge 1 q with h | h
      · have := Nat.mul_le_mul_right m h
        omega
      · obtain rfl : q = 1 := by omega
        have := hr rfl
        omega
    have := hmore (n / 2 ^ 32) (n % 2 ^ 32) (by omega) (by omega)
    omega

theorem invalidAmong_pos {m n : ℕ} (hpos : 0 < m) (hn : 0 < n) : 0 < invalidAmong m n := by
  rcases Nat.lt_or_ge n m with h | h
  · by_cases hm : m < 2 ^ 32
    · rwa [invalidAmong_of_le hm (by omega)]
    · rw [invalidAmong]
      by_cases hsmall : n < 2 ^ 32
      · rw [Nat.mod_eq_of_lt hsmall]
        omega
      · have := Nat.mul_pos (show 0 < n / 2 ^ 32 by omega) hpos
        omega
  · exact hpos.trans_le (le_invalidAmong h)

/-! ## All connections -/

/-- At most `m` events on all connections together, or events on one connection only, whose
counter does not wrap. -/
def WithinBudget (m : ℕ) (ticks : List ℕ) : Prop :=
  ticks.sum ≤ m ∨ ((ticks.filter (0 < ·)).length ≤ 1 ∧ ticks.sum ≤ 2 ^ 32)

instance (m : ℕ) (ticks : List ℕ) : Decidable (WithinBudget m ticks) :=
  inferInstanceAs (Decidable (_ ∨ _))

variable {m : ℕ} {ticks : List ℕ}

/-- Below the budget every event is invalid. -/
theorem sum_invalidAmong_of_lt (hm : m < 2 ^ 32) (h : (ticks.map (invalidAmong m)).sum < m) :
    (ticks.map (invalidAmong m)).sum = ticks.sum := by
  induction ticks with
  | nil => rfl
  | cons n ticks ih =>
    rw [List.map_cons, List.sum_cons] at h ⊢
    have hn : n ≤ m := by
      by_contra hgt
      have := le_invalidAmong (m := m) (n := n) (by omega)
      omega
    rw [invalidAmong_of_le hm hn, ih (by omega), List.sum_cons]

theorem sum_invalidAmong_le (hm : m < 2 ^ 32) (h : ticks.sum ≤ m) :
    (ticks.map (invalidAmong m)).sum = ticks.sum := by
  induction ticks with
  | nil => rfl
  | cons n ticks ih =>
    rw [List.sum_cons] at h
    rw [List.map_cons, List.sum_cons, List.sum_cons, invalidAmong_of_le hm (by omega),
      ih (by omega)]

/-- No connection has a tick when all of them together have none. -/
theorem filter_pos_eq_nil_iff : ticks.filter (0 < ·) = [] ↔ ticks.sum = 0 := by
  rw [List.filter_eq_nil_iff, List.sum_eq_zero_iff_forall_eq_nat]
  simp

/-- The budget in terms of the connections' ticks. -/
theorem sum_invalidAmong_le_iff (hpos : 0 < m) (hm : m < 2 ^ 32) :
    (ticks.map (invalidAmong m)).sum ≤ m ↔ WithinBudget m ticks := by
  induction ticks with
  | nil => simp [WithinBudget]
  | cons n ticks ih =>
    rw [List.map_cons, List.sum_cons]
    by_cases hn : n = 0
    · subst hn
      rw [invalidAmong_zero, Nat.zero_add, ih]
      simp [WithinBudget]
    · have hfilter : ((n :: ticks).filter (0 < ·)).length = (ticks.filter (0 < ·)).length + 1 := by
        rw [List.filter_cons_of_pos (by simpa using Nat.pos_of_ne_zero hn), List.length_cons]
      have hone := invalidAmong_pos hpos (Nat.pos_of_ne_zero hn)
      rw [WithinBudget, hfilter, List.sum_cons]
      constructor
      · intro hle
        have hrest : (ticks.map (invalidAmong m)).sum = ticks.sum :=
          sum_invalidAmong_of_lt hm (by omega)
        by_cases hzero : ticks.sum = 0
        · -- the connection is the only one with a tick
          refine .inr ⟨?_, ?_⟩
          · rw [filter_pos_eq_nil_iff.mpr hzero]
            rfl
          · have := (invalidAmong_le_iff (n := n) hpos).mp (by omega)
            omega
        · -- with another connection the events of both are below the budget
          left
          have hsmall : n ≤ m := by
            by_contra hgt
            have := le_invalidAmong (m := m) (n := n) (by omega)
            omega
          rw [invalidAmong_of_le hm hsmall] at hle
          omega
      · rintro (hsum | ⟨hsingle, hwrap⟩)
        · rw [invalidAmong_of_le hm (by omega), sum_invalidAmong_le hm (by omega)]
          exact hsum
        · have hzero : ticks.sum = 0 :=
            filter_pos_eq_nil_iff.mp (List.length_eq_zero_iff.mp (by omega))
          rw [sum_invalidAmong_le hm (by omega), hzero]
          exact (invalidAmong_le_iff hpos).mpr (by omega)

/-! ## The connections of a run -/

/-- One more act of a participant, for the ticks of its connections, the last one first. -/
def countTick (ticks : List ℕ) : ParticipantAct → List ℕ
  | .connected _ => 0 :: ticks
  | .session (.sender (.tick _ _)) =>
    match ticks with
    | [] => []
    | n :: ns => (n + 1) :: ns
  | _ => ticks

/-- The ticks of each connection, the last one first. -/
def connectionTicks (acts : List ParticipantAct) : List ℕ := acts.foldl countTick []

theorem Effect.invalid_le_generated (e : Effect) : e.invalid ≤ e.generated := by
  cases e with
  | generate id => cases id <;> simp [invalid, generated]
  | _ => exact Nat.le_refl 0

theorem total_invalid_of_sends {log : List Effect} (h : ∀ e ∈ log, e.Sends) :
    total Effect.invalid log = 0 :=
  total_eq_zero fun e he => Nat.le_zero.mp ((h e he).generated ▸ e.invalid_le_generated)

namespace Sender

variable {s s' : Sender} {w : World} {act : SenderAct} {out : List Effect}

/-- A tick makes an invalid event while the counter is below the bound. -/
theorem invalid_eventId {maxEvents : UInt32} (henabled : config.scenario.invalid.enabled = true)
    (hmax : config.scenario.invalid.maxEvents = some maxEvents) (id : Uuid) :
    (Effect.generate (s.eventId config id)).invalid =
      if s.eventCount.toNat < maxEvents.toNat then 1 else 0 := by
  have hkind : (invalidKind config s.eventCount).isNone = true ↔
      ¬ s.eventCount.toNat < maxEvents.toNat := by
    rw [invalidKind, henabled, hmax, Nat.not_lt, ← UInt32.le_iff_toNat_le]
    by_cases hle : maxEvents ≤ s.eventCount <;> simp [hle]
  rw [eventId]
  by_cases hlt : s.eventCount.toNat < maxEvents.toNat
  · rw [if_neg (by rw [hkind]; exact not_not.mpr hlt), if_pos hlt]
    rfl
  · rw [if_pos (hkind.mpr hlt), if_neg hlt]
    rfl

end Sender

namespace Participant

variable {s t : Participant × List Effect} {i : World × ParticipantAct}

/-- The invalid events of a run are those of its connections, and the sender that is alive counts
the ticks of the last one. -/
structure Counted (m : ℕ) (s : Participant × List Effect) (ticks : List ℕ) : Prop where
  total : total Effect.invalid s.2 = (ticks.map (invalidAmong m)).sum
  alive : ∀ sender, s.1.sender? = some sender →
    ∃ n ns, ticks = n :: ns ∧ sender.eventCount.toNat = n % 2 ^ 32
  fresh : s.1.mayStart = true → ∃ ns, ticks = 0 :: ns

/-- There is no sender before a connection. -/
theorem sender?_of_connected {w : World} {p p' : Participant} {out : List Effect}
    {handshakeTime : Duration}
    (h : p.step P participant config w (.connected handshakeTime) = some (p', out)) :
    p.sender? = none := by
  cases steps_of_step h with
  | connect _ hphase =>
    rw [sender?, session?, hphase]
    rfl

theorem countTick_of_passive {ticks : List ℕ} {act : ParticipantAct}
    (hpassive : ∀ a, act = .session a → a.isPassive = true)
    (hact : ∀ handshakeTime, act ≠ .connected handshakeTime) : countTick ticks act = ticks := by
  cases act with
  | connected handshakeTime => exact absurd rfl (hact handshakeTime)
  | session a =>
    cases a with
    | sender a => exact absurd (hpassive _ rfl) (by simp [SessionAct.isPassive])
    | _ => rfl
  | _ => rfl

/-- **A step counts its tick** on the connection of its sender. -/
theorem counted_step {maxEvents : UInt32} {ticks : List ℕ}
    (henabled : config.scenario.invalid.enabled = true)
    (hmax : config.scenario.invalid.maxEvents = some maxEvents)
    (hs : Counted maxEvents.toNat s ticks)
    (h : (component P participant config).logged.step s i = some t) :
    Counted maxEvents.toNat t (countTick ticks i.2) := by
  obtain ⟨p, log⟩ := s
  obtain ⟨w, act⟩ := i
  obtain ⟨p', log'⟩ := t
  obtain ⟨out, hstep, hlog⟩ := Component.logged_step.mp h
  obtain ⟨htotal, halive, hfresh⟩ := hs
  simp only at htotal halive hfresh hlog hstep
  subst hlog
  rcases sender_cases hstep with ⟨sender, sender', a, rfl, hsender, hsenderStep, hsender', hmay⟩ |
    ⟨interval, ⟨a, rfl⟩, hmayStart, -, -, -, hsender', hmay, rfl⟩ |
    ⟨sender, rfl, hsender, hsender', hmay, rfl⟩ | ⟨hpassive, hsame, hmay, hquiet⟩
  · -- a tick of the sender counts for the last connection, and its other steps do not
    obtain ⟨n, ns, rfl, hcount⟩ := halive sender hsender
    rcases Sender.step_cases hsenderStep with
      ⟨utc, id, rfl, -, effects, rfl, hkeeps⟩ | ⟨hact, hidles⟩
    · refine ⟨?_, ?_, by simp [hmay]⟩
      · have hinvalid := Sender.invalid_eventId (s := sender) henabled hmax id
        have hnone := total_invalid_of_sends hkeeps.sends
        simp only [total_append, total_cons, htotal, hinvalid, hnone, hcount, countTick,
          List.map_cons, List.sum_cons, invalidAmong_succ maxEvents.toNat_lt n]
        omega
      · intro alive hliving
        obtain rfl := Session.eq_of_alive? (hsender'.symm.trans hliving)
        have hsucc : sender'.eventCount = sender.eventCount + 1 := hkeeps.eventCount
        refine ⟨n + 1, ns, rfl, ?_⟩
        rw [hsucc, UInt32.toNat_add, hcount]
        simp
    · have hticks : countTick (n :: ns) (.session (.sender a)) = n :: ns := by
        cases a with
        | tick utc id => exact absurd rfl (hact utc id)
        | _ => rfl
      rw [hticks]
      obtain ⟨-, -, hsucc, -, hnone⟩ := hidles
      refine ⟨?_, ?_, by simp [hmay]⟩
      · simp only [total_append, htotal, total_invalid_of_sends hnone]
        rfl
      · intro alive hliving
        obtain rfl := Session.eq_of_alive? (hsender'.symm.trans hliving)
        exact ⟨n, ns, rfl, hsucc ▸ hcount⟩
  · -- the counter of a new sender is zero, as are the ticks of its connection
    obtain ⟨ns, rfl⟩ := hfresh hmayStart
    refine ⟨?_, ?_, by simp [hmay]⟩
    · simpa [countTick] using htotal
    · intro alive hliving
      obtain rfl := Option.some.inj (hsender'.symm.trans hliving)
      exact ⟨0, ns, rfl, rfl⟩
  · refine ⟨?_, by simp [hsender'], by simp [hmay]⟩
    simpa [countTick] using htotal
  · have hnone := (total_eq_zero_of_quiet hquiet).2.1
    by_cases hact : ∃ handshakeTime, act = .connected handshakeTime
    · -- a new connection, without a sender so far
      obtain ⟨handshakeTime, rfl⟩ := hact
      have hconnects : p.step P participant config w (.connected handshakeTime) = some (p', out) :=
        hstep
      have hsender' : p'.sender? = none := hsame.trans (sender?_of_connected hconnects)
      refine ⟨?_, by simp [hsender'], fun _ => ⟨ticks, rfl⟩⟩
      simp only [total_append, htotal, hnone, countTick, List.map_cons, List.sum_cons,
        invalidAmong_zero, Nat.zero_add, Nat.add_zero]
    · have hticks : countTick ticks act = ticks :=
        countTick_of_passive hpassive (not_exists.mp hact)
      simp only [hticks]
      refine ⟨?_, fun alive hliving => halive alive (hsame ▸ hliving), fun h => ?_⟩
      · simp only [total_append, htotal, hnone, Nat.add_zero]
      · exact hfresh ((hmay h).resolve_right hact)

/-- **The invalid events of a run**, connection by connection. -/
theorem counted_run {maxEvents : UInt32} {ticks : List ℕ} {inputs : List (World × ParticipantAct)}
    (henabled : config.scenario.invalid.enabled = true)
    (hmax : config.scenario.invalid.maxEvents = some maxEvents)
    (hs : Counted maxEvents.toNat s ticks)
    (h : (component P participant config).logged.exec s inputs = some t) :
    Counted maxEvents.toNat t ((inputs.map Prod.snd).foldl countTick ticks) := by
  induction inputs generalizing s ticks with
  | nil => exact Option.some.inj h ▸ hs
  | cons i inputs ih =>
    obtain ⟨u, hu, hrest⟩ := Machine.exec_cons.mp h
    exact ih (counted_step henabled hmax hs hu) hrest

theorem counted_spawn (m : ℕ) (delay : Duration) : Counted m (spawn delay, []) [] where
  total := rfl
  alive _ h := nomatch h
  fresh h := nomatch h

/-- **The budget of invalid events** of a participant holds exactly for the runs within it. -/
theorem invalid_le_iff {options : SafetyOptions} {maxEvents : UInt32} {delay : Duration}
    {inputs : List (World × ParticipantAct)} {p : Participant} {log : List Effect}
    (haccepted : validateWithOptions config options = .ok ())
    (henabled : config.scenario.invalid.enabled = true)
    (hmax : config.scenario.invalid.maxEvents = some maxEvents)
    (h : (component P participant config).logged.exec (spawn delay, []) inputs = some (p, log)) :
    total Effect.invalid log ≤ maxEvents.toNat ↔
      WithinBudget maxEvents.toNat (connectionTicks (inputs.map Prod.snd)) := by
  have hpos : 0 < maxEvents.toNat := by
    obtain ⟨bound, hbound, hne⟩ := exists_maxEvents haccepted henabled
    obtain rfl : bound = maxEvents := Option.some.inj (hbound.symm.trans hmax)
    exact Nat.pos_of_ne_zero fun hzero => hne (UInt32.toNat_inj.mp hzero)
  have htotal : total Effect.invalid log = _ :=
    (counted_run henabled hmax (counted_spawn _ delay) h).total
  rw [htotal]
  exact sum_invalidAmong_le_iff hpos maxEvents.toNat_lt

/-! ## A second connection -/

namespace Malformed

/-- A participant that only sends. -/
def peer : ParticipantConfig := { id := "peer", role := .sendOnly }

/-- At most one malformed event, and a lost connection is dialed again. -/
def single : AppConfig where
  authorization := { acknowledged := true }
  participants := [peer]
  scenario := { invalid := { enabled := true, kind := some .malformedXml, maxEvents := some 1 } }
  reconnect := { enabled := true, jitterPercent := 0 }

/-- The world at a second. -/
def world (secs : ℕ) : World := { World.initial false with now := Duration.fromSecs secs }

/-- A connection that is dialed at a second, with its samples, up to its first tick. -/
def connection (secs samples : ℕ) (id : Uuid) : List (World × ParticipantAct) :=
  [(world secs, .enterLoop), (world secs, .connected 0)] ++
    List.replicate samples (world secs, .sampled) ++
    [(world secs, .session (.barrier .check)),
      (world (secs + 30), .session (.sender (.tick 0 id)))]

/-- The server closes the connection on the malformed event. -/
def refused : List (World × ParticipantAct) :=
  [(world 30, .session (.sender (.write (.failed "write failed" false)))), (world 30, .sessionOver),
    (world 30, .retry 1)]

def once : List (World × ParticipantAct) :=
  (world 0, .start) :: (world 0, .delayOver) :: connection 0 1 7 ++ refused

def twice : List (World × ParticipantAct) := once ++ (world 31, .delayOver) :: connection 31 2 8

/-- The invalid events of a run. -/
def invalidEvents (inputs : List (World × ParticipantAct)) : Option ℕ :=
  ((component Reference.platform peer single).logged.exec (spawn 0, []) inputs).map
    fun t => total Effect.invalid t.2

end Malformed

/-- One connection stays within the budget. -/
theorem invalid_le_iff_once :
    ∃ t, (component Reference.platform Malformed.peer Malformed.single).logged.exec (spawn 0, [])
        Malformed.once = some t ∧ total Effect.invalid t.2 ≤ 1 := by
  have haccepted : validateWithOptions Malformed.single {} = .ok () := by decide
  have honce : Malformed.invalidEvents Malformed.once = some 1 := by decide +kernel
  obtain ⟨t, hexec, -⟩ := Option.map_eq_some_iff.mp honce
  have hbudget : total Effect.invalid t.2 ≤ (1 : UInt32).toNat :=
    (invalid_le_iff haccepted rfl rfl hexec).mpr (by decide)
  exact ⟨t, hexec, hbudget⟩

/-- Two connections of an accepted configuration send one malformed event each. -/
theorem budget_exceeded :
    validateWithOptions Malformed.single {} = .ok () ∧
      Malformed.peer ∈ participants Malformed.single ∧
      Malformed.single.scenario.invalid.enabled = true ∧
      Malformed.single.scenario.invalid.maxEvents = some 1 ∧
      ∃ inputs t,
        (component Reference.platform Malformed.peer Malformed.single).logged.exec (spawn 0, [])
          inputs = some t ∧ 1 < total Effect.invalid t.2 := by
  have htwice : Malformed.invalidEvents Malformed.twice = some 2 := by decide +kernel
  obtain ⟨t, hexec, htotal⟩ := Option.map_eq_some_iff.mp htwice
  exact ⟨by decide, by simp [participants, Malformed.single], rfl, rfl, Malformed.twice, t, hexec,
    htotal ▸ Nat.lt_succ_self 1⟩

end Participant

end TakBench
