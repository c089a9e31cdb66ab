import Mathlib.Order.Basic

/-!
# Keyed records compared as whole lists

A record `key ++ sep :: value` that is sorted as one list is sorted by its
key first as long as no key is a proper prefix of another: the comparison
of two records is then decided inside their keys, or, for equal keys,
inside their values. A key that is a proper prefix of another meets the
separator where the other key goes on, and the separator decides.

The order is the lexicographic `<` of lists, with a proper prefix first.
-/

namespace ControlPlane.KeyedOrder

variable {α : Type*}

/-- `List.mergeSort` of two elements. -/
theorem mergeSort_pair (le : α → α → Bool) (a b : α) :
    [a, b].mergeSort le = if le a b then [a, b] else [b, a] := by
  simp [List.mergeSort, List.merge]

/-- Two keys of which neither is a proper prefix of the other. -/
def NoProperPrefix (k₁ k₂ : List α) : Prop :=
  k₁ = k₂ ∨ (¬ k₁ <+: k₂ ∧ ¬ k₂ <+: k₁)

theorem NoProperPrefix.symm {k₁ k₂ : List α} (h : NoProperPrefix k₁ k₂) :
    NoProperPrefix k₂ k₁ := by
  rcases h with rfl | ⟨h₁, h₂⟩
  · exact Or.inl rfl
  · exact Or.inr ⟨h₂, h₁⟩

variable [LT α]

/-- Keys apart: the comparison never reaches what follows them. -/
theorem append_lt_append_of_apart {k₁ k₂ : List α} (v₁ v₂ : List α)
    (h₁ : ¬ k₁ <+: k₂) (h₂ : ¬ k₂ <+: k₁) : k₁ ++ v₁ < k₂ ++ v₂ ↔ k₁ < k₂ := by
  induction k₁ generalizing k₂ with
  | nil => exact absurd (List.nil_prefix) h₁
  | cons a k₁ ih =>
    cases k₂ with
    | nil => exact absurd (List.nil_prefix) h₂
    | cons b k₂ =>
      rw [List.cons_append, List.cons_append, List.cons_lt_cons_iff, List.cons_lt_cons_iff]
      by_cases hab : a = b
      · subst hab
        rw [List.prefix_cons_inj] at h₁ h₂
        rw [ih h₁ h₂]
      · simp [hab]

section Asymm

variable [Std.Asymm (fun a b : α => a < b)]

theorem append_lt_append_left_iff (l : List α) {l₁ l₂ : List α} :
    l ++ l₁ < l ++ l₂ ↔ l₁ < l₂ := by
  induction l with
  | nil => rfl
  | cons a l ih =>
    rw [List.cons_append, List.cons_append, List.cons_lt_cons_iff, ih]
    have hirrefl : ¬ a < a := fun h => Std.Asymm.asymm a a h h
    simp [hirrefl]

/-- Records with keys of which neither is a proper prefix of the other
compare by key, then by value. -/
theorem record_lt_iff (sep : α) {k₁ k₂ : List α} (v₁ v₂ : List α) (h : NoProperPrefix k₁ k₂) :
    k₁ ++ sep :: v₁ < k₂ ++ sep :: v₂ ↔ k₁ < k₂ ∨ (k₁ = k₂ ∧ v₁ < v₂) := by
  have hirrefl : ∀ x : α, ¬ x < x := fun x hx => Std.Asymm.asymm x x hx hx
  rcases h with rfl | ⟨h₁, h₂⟩
  · rw [append_lt_append_left_iff, List.cons_lt_cons_iff]
    simp [hirrefl, List.lt_irrefl]
  · have hne : k₁ ≠ k₂ := fun he => h₁ (he ▸ List.prefix_refl k₁)
    rw [append_lt_append_of_apart _ _ h₁ h₂]
    simp [hne]

variable [Std.Trichotomous (fun a b : α => a < b)]

/-- The negated strict order of pairs, in the other direction, is the
order by first component and then by second. -/
theorem not_pair_lt_iff {k₁ k₂ v₁ v₂ : List α} :
    ¬ (k₂ < k₁ ∨ (k₂ = k₁ ∧ v₂ < v₁)) ↔ k₁ < k₂ ∨ (k₁ = k₂ ∧ ¬ v₂ < v₁) := by
  constructor
  · intro h
    by_cases hk : k₁ < k₂
    · exact Or.inl hk
    · have hk' : ¬ k₂ < k₁ := fun hlt => h (Or.inl hlt)
      have heq : k₁ = k₂ := Std.Trichotomous.trichotomous k₁ k₂ hk hk'
      exact Or.inr ⟨heq, fun hv => h (Or.inr ⟨heq.symm, hv⟩)⟩
  · rintro (hk | ⟨rfl, hv⟩) (hk' | ⟨heq, hv'⟩)
    · exact List.lt_asymm hk hk'
    · exact List.lt_irrefl _ (heq ▸ hk)
    · exact List.lt_irrefl _ hk'
    · exact hv hv'

end Asymm

end ControlPlane.KeyedOrder
