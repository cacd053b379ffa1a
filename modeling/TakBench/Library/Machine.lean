import Mathlib.Algebra.Ring.Nat
import Mathlib.Data.List.Basic
import Mathlib.Tactic.Common

/-!
# Machines that run on a list of inputs

A `Machine` takes a state and an input to the next state, or refuses the input. A `Component` is
a part of a larger system: its step also reads the environment, and it says what it does to the
environment as a list of effects. `Component.logged` runs a component in any environment, one for
each step, and keeps the effects of the run as a log.

## Main definitions

* `Machine`, `Machine.exec`: a machine and its runs
* `Machine.Along C s inputs`: every step of the run meets the condition `C`
* `Machine.trace`: what the steps of a run emit
* `Component`, `Component.logged`

## Main results

* `Machine.exec_invariant`, `Machine.exec_invariant_along`: what a step preserves, a run preserves
* `Machine.exec_invariant_trace`, `Machine.exec_invariant_inputs`: the same, for an invariant of the
  state and the trace, or of the state and the inputs
* `Machine.exec_rel`: a run is related by what relates the ends of a step
* `Machine.exec_credit`, `Machine.exec_balance`: what each step pays for, a run pays for
* `Machine.exec_gap_iff`: which runs keep the gap between two values
* `Machine.exec_marked_iff`: which runs violate a condition, read off the state
* `Machine.exists_violation`: the first step that violates a condition
* `Machine.along_of_forall`, `Machine.Along.and`, `Machine.along_congr`: conditions on all steps of
  a run
-/

/-- A state machine that may refuse an input. -/
structure Machine (σ ι : Type*) where
  step : σ → ι → Option σ

namespace Machine

variable {σ ι ε : Type*} (m : Machine σ ι)

/-- The state after a list of inputs. -/
def exec : σ → List ι → Option σ
  | s, [] => some s
  | s, i :: inputs => (m.step s i).bind fun t => exec t inputs

/-- Every step of the run meets `C`. -/
def Along (C : σ → ι → Prop) : σ → List ι → Prop
  | _, [] => True
  | s, i :: inputs => C s i ∧ ∀ t, m.step s i = some t → Along C t inputs

variable {m} {s t : σ} {i : ι} {inputs inputs' : List ι} {C D : σ → ι → Prop}

@[simp] theorem exec_nil : m.exec s [] = some s := rfl

theorem exec_cons : m.exec s (i :: inputs) = some t ↔
    ∃ u, m.step s i = some u ∧ m.exec u inputs = some t := by
  rw [exec, Option.bind_eq_some_iff]

/-- One more step in front. -/
theorem exec_step {u : σ} (hstep : m.step s i = some u) (h : m.exec u inputs = some t) :
    m.exec s (i :: inputs) = some t :=
  exec_cons.mpr ⟨u, hstep, h⟩

theorem exec_append {u : σ} (h : m.exec s inputs = some u) (h' : m.exec u inputs' = some t) :
    m.exec s (inputs ++ inputs') = some t := by
  induction inputs generalizing s with
  | nil =>
    obtain rfl := Option.some.inj h
    exact h'
  | cons i inputs ih =>
    obtain ⟨v, hstep, hrest⟩ := exec_cons.mp h
    exact exec_step hstep (ih hrest)

/-- A run passes through its prefixes. -/
theorem exists_of_exec_append (h : m.exec s (inputs ++ inputs') = some t) :
    ∃ u, m.exec s inputs = some u ∧ m.exec u inputs' = some t := by
  induction inputs generalizing s with
  | nil => exact ⟨s, rfl, h⟩
  | cons i inputs ih =>
    obtain ⟨v, hstep, hrest⟩ := exec_cons.mp h
    obtain ⟨u, hu, ht⟩ := ih hrest
    exact ⟨u, exec_step hstep hu, ht⟩

/-- **Credit**: when each step that spends is paid by what it earns or by the credit of its state,
a run has not spent more than it has earned. -/
theorem exec_credit (credit : σ → ℕ) (spent earned : ι → ℕ)
    (hstep : ∀ s i t, m.step s i = some t → spent i + credit t ≤ earned i + credit s)
    (h : m.exec s inputs = some t) :
    (inputs.map spent).sum + credit t ≤ (inputs.map earned).sum + credit s := by
  induction inputs generalizing s with
  | nil =>
    obtain rfl := Option.some.inj h
    exact Nat.le_refl _
  | cons i inputs ih =>
    obtain ⟨u, hu, hrest⟩ := exec_cons.mp h
    have hfirst := hstep s i u hu
    have hlater := ih hrest
    simp only [List.map_cons, List.sum_cons]
    omega

/-- When each step changes a value by what comes in and what goes out, so does a run. -/
theorem exec_balance (value : σ → ℕ) (incoming outgoing : ι → ℕ)
    (hstep : ∀ s i t, m.step s i = some t → incoming i + value s = outgoing i + value t)
    (h : m.exec s inputs = some t) :
    (inputs.map incoming).sum + value s = (inputs.map outgoing).sum + value t := by
  induction inputs generalizing s with
  | nil =>
    obtain rfl := Option.some.inj h
    rfl
  | cons i inputs ih =>
    obtain ⟨u, hu, hrest⟩ := exec_cons.mp h
    have hfirst := hstep s i u hu
    have hlater := ih hrest
    simp only [List.map_cons, List.sum_cons]
    omega

/-- **What a step preserves under a condition, a run along the condition preserves.** -/
theorem exec_invariant_along {I : σ → Prop}
    (hstep : ∀ s i t, I s → C s i → m.step s i = some t → I t) (hC : m.Along C s inputs)
    (hs : I s) (h : m.exec s inputs = some t) : I t := by
  induction inputs generalizing s with
  | nil => exact Option.some.inj h ▸ hs
  | cons i inputs ih =>
    obtain ⟨u, hu, hrest⟩ := exec_cons.mp h
    exact ih (hC.2 u hu) (hstep s i u hs hC.1 hu) hrest

/-- **What a step preserves, a run preserves.** -/
theorem exec_invariant {I : σ → Prop} (hstep : ∀ s i t, I s → m.step s i = some t → I t)
    (hs : I s) (h : m.exec s inputs = some t) : I t := by
  induction inputs generalizing s with
  | nil => exact Option.some.inj h ▸ hs
  | cons i inputs ih =>
    obtain ⟨u, hu, hrest⟩ := exec_cons.mp h
    exact ih (hstep s i u hs hu) hrest

/-- **What a step preserves when its inputs grow, a run preserves.** -/
theorem exec_invariant_inputs {I : σ → List ι → Prop} {before : List ι}
    (hstep : ∀ s before i t, I s before → m.step s i = some t → I t (before ++ [i]))
    (hs : I s before) (h : m.exec s inputs = some t) : I t (before ++ inputs) := by
  induction inputs generalizing s before with
  | nil =>
    obtain rfl := Option.some.inj h
    rwa [List.append_nil]
  | cons i inputs ih =>
    obtain ⟨u, hu, hrest⟩ := exec_cons.mp h
    have hlater := ih (hstep s before i u hs hu) hrest
    rwa [List.append_assoc] at hlater

/-- A reflexive and transitive relation that holds of every step holds of every run. -/
theorem exec_rel {R : σ → σ → Prop} (hrefl : ∀ s, R s s)
    (htrans : ∀ s t u, R s t → R t u → R s u) (hstep : ∀ s i t, m.step s i = some t → R s t)
    (h : m.exec s inputs = some t) : R s t := by
  induction inputs generalizing s with
  | nil => exact Option.some.inj h ▸ hrefl s
  | cons i inputs ih =>
    obtain ⟨u, hu, hrest⟩ := exec_cons.mp h
    exact htrans s u t (hstep s i u hu) (ih hrest)

theorem along_cons (hstep : m.step s i = some t) :
    m.Along C s (i :: inputs) ↔ C s i ∧ m.Along C t inputs := by
  constructor
  · exact fun h => ⟨h.1, h.2 t hstep⟩
  · rintro ⟨hC, hrest⟩
    refine ⟨hC, fun u hu => ?_⟩
    rw [hstep] at hu
    exact Option.some.inj hu ▸ hrest

theorem along_append {u : σ} (h : m.exec s inputs = some u) :
    m.Along C s (inputs ++ inputs') ↔ m.Along C s inputs ∧ m.Along C u inputs' := by
  induction inputs generalizing s with
  | nil =>
    obtain rfl := Option.some.inj h
    exact (and_iff_right trivial).symm
  | cons i inputs ih =>
    obtain ⟨v, hstep, hrest⟩ := exec_cons.mp h
    rw [List.cons_append, along_cons hstep, along_cons hstep, ih hrest, and_assoc]

/-- When no step narrows the gap between two values, no run narrows it. -/
theorem exec_gap {low high : σ → ℕ}
    (hgap : ∀ s i t, m.step s i = some t → high s + low t ≤ high t + low s)
    (h : m.exec s inputs = some t) : high s + low t ≤ high t + low s := by
  induction inputs generalizing s with
  | nil =>
    obtain rfl := Option.some.inj h
    exact Nat.le_refl _
  | cons i inputs ih =>
    obtain ⟨u, hu, hrest⟩ := exec_cons.mp h
    have hfirst := hgap s i u hu
    have hlater := ih hrest
    omega

/-- The runs that keep a gap which no step narrows are those whose steps all keep it. -/
theorem exec_gap_iff (low high : σ → ℕ)
    (hgap : ∀ s i t, m.step s i = some t → high s + low t ≤ high t + low s)
    (hkeeps : ∀ s i t, m.step s i = some t → (high s + low t = high t + low s ↔ C s i))
    (h : m.exec s inputs = some t) : high s + low t = high t + low s ↔ m.Along C s inputs := by
  induction inputs generalizing s with
  | nil =>
    obtain rfl := Option.some.inj h
    exact iff_of_true rfl trivial
  | cons i inputs ih =>
    obtain ⟨u, hu, hrest⟩ := exec_cons.mp h
    have hfirst := hgap s i u hu
    have hlater := exec_gap hgap hrest
    have hiff := ih hrest
    rw [along_cons hu, ← hkeeps s i u hu, ← hiff]
    -- the first step and the rest both keep the gap, or one of them widens it
    omega

/-- **A mark that the violations of a condition leave**, and nothing else, is on the end of a run
exactly if it was on its start or a step has violated the condition. -/
theorem exec_marked_iff {marked : σ → Prop}
    (hstep : ∀ s i t, m.step s i = some t → (marked t ↔ marked s ∨ ¬ C s i))
    (h : m.exec s inputs = some t) : marked t ↔ marked s ∨ ¬ m.Along C s inputs := by
  induction inputs generalizing s with
  | nil =>
    obtain rfl := Option.some.inj h
    exact (or_iff_left fun hviolated => hviolated trivial).symm
  | cons i inputs ih =>
    obtain ⟨u, hu, hrest⟩ := exec_cons.mp h
    have hfirst := hstep s i u hu
    have hlater := ih hrest
    rw [hlater, hfirst, along_cons hu, not_and_or, or_assoc]

/-- What the steps of a run emit, in order. -/
def trace (m : Machine σ ι) (emit : σ → ι → List ε) : σ → List ι → List ε
  | _, [] => []
  | s, i :: inputs => emit s i ++ (m.step s i).elim [] fun t => trace m emit t inputs

/-- What holds of all that the steps emit, holds of a trace. -/
theorem forall_mem_trace {emit : σ → ι → List ε} {Q : ε → Prop}
    (hemit : ∀ s i, ∀ e ∈ emit s i, Q e) : ∀ e ∈ m.trace emit s inputs, Q e := by
  induction inputs generalizing s with
  | nil => simp [trace]
  | cons i inputs ih =>
    intro e he
    rcases List.mem_append.mp he with he | he
    · exact hemit s i e he
    · cases hstep : m.step s i with
      | none =>
        rw [hstep] at he
        cases he
      | some t =>
        rw [hstep] at he
        exact ih e he

/-- **What a step preserves under a condition when its trace grows, a run along the condition
preserves.** -/
theorem exec_invariant_trace {emit : σ → ι → List ε} {I : σ → List ε → Prop} {log : List ε}
    (hstep : ∀ s log i t, I s log → C s i → m.step s i = some t → I t (log ++ emit s i))
    (hC : m.Along C s inputs) (hs : I s log) (h : m.exec s inputs = some t) :
    I t (log ++ m.trace emit s inputs) := by
  induction inputs generalizing s log with
  | nil =>
    obtain rfl := Option.some.inj h
    rwa [trace, List.append_nil]
  | cons i inputs ih =>
    obtain ⟨u, hu, hrest⟩ := exec_cons.mp h
    have hlater := ih (hC.2 u hu) (hstep s log i u hs hC.1 hu) hrest
    rw [trace, hu, Option.elim_some, ← List.append_assoc]
    exact hlater

theorem along_of_forall (h : ∀ s, ∀ i ∈ inputs, C s i) : m.Along C s inputs := by
  induction inputs generalizing s with
  | nil => trivial
  | cons i inputs ih =>
    exact ⟨h s i (by simp), fun t _ => ih fun s' j hj => h s' j (by simp [hj])⟩

theorem Along.and (hC : m.Along C s inputs) (hD : m.Along D s inputs) :
    m.Along (fun s i => C s i ∧ D s i) s inputs := by
  induction inputs generalizing s with
  | nil => trivial
  | cons i inputs ih => exact ⟨⟨hC.1, hD.1⟩, fun t ht => ih (hC.2 t ht) (hD.2 t ht)⟩

/-- **Conditions that agree under an invariant** hold along the same runs. -/
theorem along_congr {I : σ → Prop} (hstep : ∀ s i t, I s → m.step s i = some t → I t)
    (hiff : ∀ s i, I s → (C s i ↔ D s i)) (hs : I s) :
    m.Along C s inputs ↔ m.Along D s inputs := by
  induction inputs generalizing s with
  | nil => exact Iff.rfl
  | cons i inputs ih =>
    exact and_congr (hiff s i hs) (forall_congr' fun t => imp_congr_right fun ht =>
      ih (hstep s i t hs ht))

/-- A run that does not meet a condition has a first step that violates it. -/
theorem exists_violation (hC : ¬ m.Along C s inputs) (h : m.exec s inputs = some t) :
    ∃ before i after u v, inputs = before ++ i :: after ∧ m.exec s before = some u ∧
      m.Along C s before ∧ ¬ C u i ∧ m.step u i = some v ∧ m.exec v after = some t := by
  induction inputs generalizing s with
  | nil => exact absurd trivial hC
  | cons i inputs ih =>
    obtain ⟨u, hu, hrest⟩ := exec_cons.mp h
    by_cases hfirst : C s i
    · have hlater : ¬ m.Along C u inputs := by
        intro halong
        refine hC ⟨hfirst, fun t ht => ?_⟩
        rw [hu] at ht
        exact Option.some.inj ht ▸ halong
      obtain ⟨before, j, after, v, x, rfl, hbefore, halong, hviolated, hstep, hafter⟩ :=
        ih hlater hrest
      refine ⟨i :: before, j, after, v, x, rfl, exec_step hu hbefore, ⟨hfirst, fun t ht => ?_⟩,
        hviolated, hstep, hafter⟩
      rw [hu] at ht
      exact Option.some.inj ht ▸ halong
    · exact ⟨[], i, inputs, s, u, rfl, rfl, trivial, hfirst, hu, hrest⟩

end Machine

/-- A part of a system: given the environment, the next state and the effects. -/
structure Component (ω σ α ε : Type*) where
  step : ω → σ → α → Option (σ × List ε)

namespace Component

variable {ω σ α ε : Type*} (c : Component ω σ α ε)

/-- A component in any environments, with the log of its effects. -/
def logged : Machine (σ × List ε) (ω × α) where
  step s i := (c.step i.1 s.1 i.2).map fun p => (p.1, s.2 ++ p.2)

variable {c} {s t : σ × List ε} {i : ω × α}

theorem logged_step : c.logged.step s i = some t ↔
    ∃ out, c.step i.1 s.1 i.2 = some (t.1, out) ∧ t.2 = s.2 ++ out := by
  simp only [logged, Option.map_eq_some_iff]
  constructor
  · rintro ⟨p, hp, rfl⟩
    exact ⟨p.2, hp, rfl⟩
  · rintro ⟨out, hout, hlog⟩
    exact ⟨_, hout, by rw [← hlog]⟩

end Component
