import Mathlib.Order.Basic

/-!
# Step loops driven by fuel

A loop is given by one step that either continues with a new state or stops
with a result. The loop runs the step until it stops, for at most `fuel`
steps; running out of fuel is `none`. A tail-recursive method of an
object-oriented program, and a `while` loop whose body decides to leave,
are both of this shape.

The rules proved here are the ones a verification of such a loop needs:
a potential that every continuing step lowers bounds the fuel the loop
needs, and an invariant kept by every continuing step and implying the
postcondition at every stop holds of the loop's result. `Progress` says both
of one step at once, and gives both of the loop.
-/

namespace ControlPlane.Loop

variable {σ ρ : Type*}

/-- Run `step` from `s` for at most `fuel` steps. -/
def run (step : σ → σ ⊕ ρ) : Nat → σ → Option ρ
  | 0, _ => none
  | fuel + 1, s =>
      match step s with
      | .inl s' => run step fuel s'
      | .inr r => some r

@[simp] theorem run_zero (step : σ → σ ⊕ ρ) (s : σ) : run step 0 s = none := rfl

theorem run_succ_of_continue {step : σ → σ ⊕ ρ} {s s' : σ} (fuel : Nat)
    (h : step s = .inl s') : run step (fuel + 1) s = run step fuel s' := by
  simp only [run, h]

theorem run_succ_of_stop {step : σ → σ ⊕ ρ} {s : σ} {r : ρ} (fuel : Nat)
    (h : step s = .inr r) : run step (fuel + 1) s = some r := by
  simp only [run, h]

/-- More fuel never changes a result the loop has already reached. -/
theorem run_mono {step : σ → σ ⊕ ρ} {r : ρ} :
    ∀ {n m : Nat} {s : σ}, run step n s = some r → n ≤ m → run step m s = some r
  | 0, _, _, h, _ => by simp at h
  | n + 1, m + 1, s, h, hle => by
      cases hs : step s with
      | inl s' =>
          rw [run_succ_of_continue n hs] at h
          rw [run_succ_of_continue m hs]
          exact run_mono h (by omega)
      | inr r' =>
          rw [run_succ_of_stop n hs] at h
          rw [run_succ_of_stop m hs]
          exact h
  | _ + 1, 0, _, _, hle => by omega

section Potential

variable (step : σ → σ ⊕ ρ) (P : σ → Prop) (Φ : σ → Nat)

/-- `Φ` is a potential for `step` on the states in `P` when every continuing
step from `P` stays in `P` and lowers `Φ`. -/
def Decreasing : Prop := ∀ s s', P s → step s = .inl s' → P s' ∧ Φ s' < Φ s

/-- A loop with a potential stops within one step more than its potential. -/
theorem run_isSome_of_decreasing (hΦ : Decreasing step P Φ) :
    ∀ (fuel : Nat) (s : σ), P s → Φ s < fuel → ∃ r, run step fuel s = some r
  | 0, _, _, h => absurd h (Nat.not_lt_zero _)
  | fuel + 1, s, hs, h => by
      cases hst : step s with
      | inl s' =>
          obtain ⟨hs', hlt⟩ := hΦ s s' hs hst
          rw [run_succ_of_continue fuel hst]
          exact run_isSome_of_decreasing hΦ fuel s' hs' (by omega)
      | inr r => exact ⟨r, run_succ_of_stop fuel hst⟩

end Potential

section Invariant

variable {step : σ → σ ⊕ ρ} (P : σ → Prop) (Q : ρ → Prop)

/-- The loop invariant `P` is kept by every continuing step and gives `Q` at
every stop. -/
def Keeps (step : σ → σ ⊕ ρ) : Prop :=
  ∀ s, P s → (∀ s', step s = .inl s' → P s') ∧ (∀ r, step s = .inr r → Q r)

/-- The invariant rule: a result of a loop started in `P` satisfies `Q`. -/
theorem run_invariant (hk : Keeps P Q step) :
    ∀ {fuel : Nat} {s : σ} {r : ρ}, P s → run step fuel s = some r → Q r
  | 0, _, _, _, h => by simp at h
  | fuel + 1, s, r, hs, h => by
      cases hst : step s with
      | inl s' =>
          rw [run_succ_of_continue fuel hst] at h
          exact run_invariant hk ((hk s hs).1 s' hst) h
      | inr r' =>
          rw [run_succ_of_stop fuel hst, Option.some.injEq] at h
          subst h
          exact (hk s hs).2 r' hst

end Invariant

/-- One step from a state of `P` either stops with a result in `Q`, or goes
on to a state of `P` of smaller potential. -/
def Progress (step : σ → σ ⊕ ρ) (P : σ → Prop) (Q : ρ → Prop) (Φ : σ → Nat) : Prop :=
  ∀ s, P s → (∃ r, step s = .inr r ∧ Q r) ∨ (∃ s', step s = .inl s' ∧ P s' ∧ Φ s' < Φ s)

/-- A loop that makes progress stops within fuel beyond the potential, with
a result in `Q`. -/
theorem run_of_progress {step : σ → σ ⊕ ρ} {P : σ → Prop} {Q : ρ → Prop} {Φ : σ → Nat}
    (h : Progress step P Q Φ) : ∀ {fuel : Nat} {s : σ}, P s → Φ s < fuel →
      ∃ r, run step fuel s = some r ∧ Q r
  | 0, _, _, hlt => absurd hlt (Nat.not_lt_zero _)
  | fuel + 1, s, hs, hlt => by
      rcases h s hs with ⟨r, hr, hq⟩ | ⟨s', hs', hp', hΦ⟩
      · exact ⟨r, run_succ_of_stop fuel hr, hq⟩
      · rw [run_succ_of_continue fuel hs']
        exact run_of_progress h hp' (by omega)

end ControlPlane.Loop
