import Mathlib.Order.Basic

/-!
# Leading retries of a sequence of outcomes

A policy that retries an operation while its outcome asks for a retry, for at
most `budget` attempts, is decided by one number of the outcome sequence: how
many outcomes, from the first on, ask for a retry. `leading p n` counts them
among the first `n`. The policy then makes `min budget (leading p budget + 1)`
attempts and ends with the outcome at index `leading p budget`, or exhausts
its budget when that index is `budget`.
-/

namespace ControlPlane.Retry

/-- The number of the first `n` outcomes, from the first on, that satisfy `p`. -/
def leading (p : Nat → Bool) : Nat → Nat
  | 0 => 0
  | n + 1 => if leading p n = n ∧ p n = true then n + 1 else leading p n

variable {p : Nat → Bool}

@[simp] theorem leading_zero (p : Nat → Bool) : leading p 0 = 0 := rfl

theorem leading_le (p : Nat → Bool) (n : Nat) : leading p n ≤ n := by
  induction n with
  | zero => simp
  | succ n ih =>
      unfold leading
      split <;> omega

/-- When the first `n` outcomes all ask for a retry, all `n` lead. -/
theorem leading_eq_self {n : Nat} (h : ∀ j < n, p j = true) : leading p n = n := by
  induction n with
  | zero => rfl
  | succ n ih =>
      have hn : leading p n = n := ih fun j hj => h j (by omega)
      rw [leading, if_pos ⟨hn, h n (by omega)⟩]

/-- The first outcome that does not ask for a retry ends the leading ones. -/
theorem leading_eq_of_not {m n : Nat} (h : ∀ j < m, p j = true) (hpm : p m = false)
    (hm : m < n) : leading p n = m := by
  induction n with
  | zero => omega
  | succ n ih =>
      rw [leading]
      by_cases hmn : m = n
      · subst hmn
        have hn : leading p m = m := leading_eq_self h
        rw [if_neg (by simp [hpm]), hn]
      · have hn : leading p n = m := ih (by omega)
        rw [if_neg (by omega), hn]

/-- Every outcome before the leading count asks for a retry. -/
theorem lt_leading {j n : Nat} (hj : j < leading p n) : p j = true := by
  induction n with
  | zero => simp at hj
  | succ n ih =>
      unfold leading at hj
      split at hj
      · next hn =>
          by_cases hjn : j = n
          · exact hjn ▸ hn.2
          · exact ih (by omega)
      · exact ih hj

/-- The outcome at the leading count, inside the first `n`, does not. -/
theorem leading_not {n : Nat} (hn : leading p n < n) : p (leading p n) = false := by
  induction n with
  | zero => omega
  | succ n ih =>
      by_cases hc : leading p n = n ∧ p n = true
      · rw [leading, if_pos hc] at hn
        omega
      · -- the count stopped growing at or before `n`
        have hl : leading p (n + 1) = leading p n := by rw [leading, if_neg hc]
        rw [hl] at hn ⊢
        by_cases hln : leading p n = n
        · rw [hln]
          simpa [hln] using hc
        · exact ih (by have := leading_le p n; omega)

end ControlPlane.Retry
