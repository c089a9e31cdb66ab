import Mathlib.Order.Interval.Finset.Nat

/-!
# Taking turns modulo a count

Callers that share a counter take turns: the caller that reads `c` takes the
turn `c % k`. Any `k` consecutive readings take every turn once, and `q * k`
consecutive readings take every turn `q` times. A scan that starts at a turn
and steps by one modulo `k` visits the turns in the order the readings would.
-/

namespace ControlPlane.RoundRobin

/-- The turns of the `n` counter readings from `c` on. -/
def turns (k c n : ℕ) : List ℕ := (List.range' c n).map (· % k)

@[simp] theorem length_turns (k c n : ℕ) : (turns k c n).length = n := by
  simp [turns]

theorem turns_zero (k c : ℕ) : turns k c 0 = [] := rfl

theorem turns_succ (k c n : ℕ) : turns k c (n + 1) = c % k :: turns k (c + 1) n := by
  simp [turns, List.range'_succ]

theorem turns_add (k c m n : ℕ) : turns k c (m + n) = turns k c m ++ turns k (c + m) n := by
  rw [turns, ← List.range'_append_1, List.map_append, turns, turns]

/-- A scan may start from the turn itself or from the reading it came from. -/
theorem turns_mod (k c n : ℕ) : turns k (c % k) n = turns k c n := by
  induction n generalizing c with
  | zero => rfl
  | succ n ih =>
    rw [turns_succ, turns_succ, Nat.mod_mod, ← ih (c + 1), ← ih (c % k + 1), Nat.mod_add_mod]

/-- `k` consecutive readings take every turn once. -/
theorem turns_perm (k c : ℕ) : (turns k c k).Perm (List.range k) := by
  have h := Nat.multiset_Ico_map_mod c k
  rw [Multiset.Ico, Nat.Ico_eq_range'] at h
  simp only [Nat.add_sub_cancel_left, Multiset.map_coe, Multiset.range] at h
  exact Multiset.coe_eq_coe.mp h

theorem mem_turns {k c i : ℕ} : i ∈ turns k c k ↔ i < k := by
  rw [(turns_perm k c).mem_iff, List.mem_range]

theorem lt_of_mem_turns {k c n i : ℕ} (hk : 0 < k) (hi : i ∈ turns k c n) : i < k := by
  obtain ⟨j, -, rfl⟩ := List.mem_map.mp hi
  exact Nat.mod_lt j hk

/-- `q * k` consecutive readings take every turn `q` times. -/
theorem count_turns_mul (k c q : ℕ) {i : ℕ} (hi : i < k) : (turns k c (q * k)).count i = q := by
  induction q generalizing c with
  | zero => simp [turns_zero]
  | succ q ih =>
    have hwindow : (turns k (c + q * k) k).count i = 1 := by
      rw [(turns_perm k _).count_eq, List.count_range, if_pos hi]
    rw [Nat.succ_mul, turns_add, List.count_append, ih, hwindow]

end ControlPlane.RoundRobin
