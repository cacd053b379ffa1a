import Mathlib.Tactic.Common

/-!
# Loops that may run forever

The body of a loop takes a state and goes on with another one, or ends the loop with a result.
`Loop body n s r` says that the loop, started in `s`, ends with `r` in its `n`-th pass. A loop that
runs forever has no result. It ends if an invariant holds before every pass and a number decreases
in each pass that goes on; and what it ends with is what its last pass says.

## Main definitions

* `Loop body n s r`

## Main results

* `Loop.unique`: a loop has one result, and one number of passes
* `Loop.exists_of_measure`: a loop with a decreasing number ends
* `Loop.exists_last`: the last pass of a loop
-/

variable {σ ρ : Type*}

/-- The loop ends in its `n`-th pass. -/
inductive Loop (body : σ → σ ⊕ ρ) : ℕ → σ → ρ → Prop
  | done {s : σ} {r : ρ} (h : body s = .inr r) : Loop body 1 s r
  | more {n : ℕ} {s s' : σ} {r : ρ} (h : body s = .inl s') (rest : Loop body n s' r) :
      Loop body (n + 1) s r

namespace Loop

variable {body : σ → σ ⊕ ρ} {n n' : ℕ} {s : σ} {r r' : ρ}

/-- The body is a function, so that a loop has one result. -/
theorem unique (h : Loop body n s r) (h' : Loop body n' s r') : n = n' ∧ r = r' := by
  induction h generalizing n' with
  | done hbody =>
    cases h' with
    | done hbody' => exact ⟨rfl, Sum.inr.inj (hbody.symm.trans hbody')⟩
    | more hbody' _ => cases hbody.symm.trans hbody'
  | more hbody _ ih =>
    cases h' with
    | done hbody' => cases hbody.symm.trans hbody'
    | more hbody' rest' =>
      obtain rfl := Sum.inl.inj (hbody.symm.trans hbody')
      obtain ⟨rfl, rfl⟩ := ih rest'
      exact ⟨rfl, rfl⟩

/-- **A loop with a decreasing number ends**, after at most so many passes, and one more. -/
theorem exists_of_measure (I : σ → Prop) (measure : σ → ℕ) (Q : ρ → Prop)
    (hmore : ∀ s s', I s → body s = .inl s' → I s' ∧ measure s' < measure s)
    (hdone : ∀ s r, I s → body s = .inr r → Q r) (hs : I s) :
    ∃ n r, n ≤ measure s + 1 ∧ Loop body n s r ∧ Q r := by
  induction hmeasure : measure s using Nat.strongRecOn generalizing s with
  | _ m ih =>
    cases hbody : body s with
    | inr r => exact ⟨1, r, Nat.le_add_left 1 m, .done hbody, hdone s r hs hbody⟩
    | inl s' =>
      obtain ⟨hs', hless⟩ := hmore s s' hs hbody
      obtain ⟨n, r, hn, hloop, hr⟩ := ih (measure s') (hmeasure ▸ hless) hs' rfl
      refine ⟨n + 1, r, ?_, .more hbody hloop, hr⟩
      omega

/-- What a loop ends with is what its last pass says. -/
theorem exists_last (h : Loop body n s r) : ∃ t, body t = .inr r := by
  induction h with
  | done hbody => exact ⟨_, hbody⟩
  | more _ _ ih => exact ih

end Loop
