import Mathlib.Data.Finset.Card
import Mathlib.Logic.Function.Basic

/-!
# Gathering the results of concurrent completions

`n` completions run concurrently. Completion `i` stores its result in slot
`i`, takes a number from a shared counter (an atomic `fetch_add`), and the
one that takes `n - 1` calls the continuation with what the slots hold. In
every interleaving of the completions' steps the continuation is called only
once every completion has taken its number, never twice, and, once all the
completions have run, exactly once, with every result in its slot.

## Implementation notes

The steps of all completions interleave, each step atomic. The `fetch_add`
is sequentially consistent, so the stores before it in their threads are
visible to the thread that takes the last number, as they are here. A
completion's stage records the number it took.
-/

namespace ControlPlane.Gather

/-- Where a completion is: not started, its result stored, its number taken,
or past the test of its number. -/
inductive Stage
  | idle
  | stored
  | counted (seen : Nat)
  | done (seen : Nat)
  deriving DecidableEq, Repr

/-- The number a completion took. -/
def Stage.seen : Stage → Option Nat
  | .counted seen | .done seen => some seen
  | .idle | .stored => none

/-- How many steps a completion has taken. -/
def Stage.rank : Stage → Nat
  | .idle => 0
  | .stored => 1
  | .counted _ => 2
  | .done _ => 3

@[simp] theorem Stage.seen_idle : Stage.idle.seen = none := rfl
@[simp] theorem Stage.seen_stored : Stage.stored.seen = none := rfl
@[simp] theorem Stage.seen_counted (seen : Nat) : (Stage.counted seen).seen = some seen := rfl
@[simp] theorem Stage.seen_done (seen : Nat) : (Stage.done seen).seen = some seen := rfl
@[simp] theorem Stage.rank_idle : Stage.idle.rank = 0 := rfl
@[simp] theorem Stage.rank_stored : Stage.stored.rank = 1 := rfl
@[simp] theorem Stage.rank_counted (seen : Nat) : (Stage.counted seen).rank = 2 := rfl
@[simp] theorem Stage.rank_done (seen : Nat) : (Stage.done seen).rank = 3 := rfl

/-- The slots, the counter, where each completion is, and what the
continuation was called with so far. -/
structure State (α β : Type) where
  slots : Nat → Option α
  counter : Nat
  stages : Nat → Stage
  calls : List β

variable {α β : Type} (n : Nat) (result : Nat → α) (finish : List (Option α) → β)

/-- Empty slots, the counter at zero, no completion started. -/
def State.init : State α β := ⟨fun _ => none, 0, fun _ => .idle, []⟩

/-- What the slots hold, in order. -/
def State.contents (s : State α β) : List (Option α) := (List.range n).map s.slots

/-- Every slot holding its completion's result. -/
def full : List (Option α) := (List.range n).map fun i => some (result i)

/-- One step of completion `i`; `none` for no such completion, or one that
has run. -/
def step (s : State α β) (i : Nat) : Option (State α β) :=
  if i < n then
    match s.stages i with
    | .idle => some { s with
        slots := Function.update s.slots i (some (result i))
        stages := Function.update s.stages i .stored }
    | .stored => some { s with
        counter := s.counter + 1
        stages := Function.update s.stages i (.counted s.counter) }
    | .counted seen => some { s with
        stages := Function.update s.stages i (.done seen)
        calls := if seen + 1 = n then s.calls ++ [finish (s.contents n)] else s.calls }
    | .done _ => none
  else none

/-- The steps of `order`, one after another. -/
def run (s : State α β) : List Nat → Option (State α β)
  | [] => some s
  | i :: order => (step n result finish s i).bind fun s' => run s' order

/-- What holds in every state a run reaches: each slot holds its result once
stored; the numbers taken are distinct, below the counter, and as many as
the counter says; and the continuation was called once exactly when a
completion that took `n - 1` is past its test. -/
structure Inv (s : State α β) : Prop where
  slot : ∀ i < n, s.slots i = if s.stages i = .idle then none else some (result i)
  seen_lt : ∀ i < n, ∀ c, (s.stages i).seen = some c → c < s.counter
  seen_inj : ∀ i < n, ∀ j < n, ∀ c, (s.stages i).seen = some c → (s.stages j).seen = some c → i = j
  counter_eq : s.counter = ((Finset.range n).filter fun i => (s.stages i).seen.isSome).card
  calls_nil : (∀ i < n, ∀ seen, s.stages i = .done seen → seen + 1 ≠ n) → s.calls = []
  calls_full : ∀ i < n, ∀ seen, s.stages i = .done seen → seen + 1 = n →
    s.calls = [finish (full n result)]

variable {n result finish}

/-! ## One step -/

section Step

variable {s s' : State α β} {i : Nat}

/-- What a step can do: store, take a number, or pass the test. -/
theorem step_cases (hs : step n result finish s i = some s') :
    i < n ∧
      (s.stages i = .idle ∧ s' = { s with
          slots := Function.update s.slots i (some (result i))
          stages := Function.update s.stages i .stored } ∨
        s.stages i = .stored ∧ s' = { s with
          counter := s.counter + 1
          stages := Function.update s.stages i (.counted s.counter) } ∨
        ∃ seen, s.stages i = .counted seen ∧ s' = { s with
          stages := Function.update s.stages i (.done seen)
          calls := if seen + 1 = n then s.calls ++ [finish (s.contents n)] else s.calls }) := by
  unfold step at hs
  split at hs
  · next hi =>
    refine ⟨hi, ?_⟩
    split at hs
    · next hidle => exact .inl ⟨hidle, (Option.some.inj hs).symm⟩
    · next hstored => exact .inr (.inl ⟨hstored, (Option.some.inj hs).symm⟩)
    · next seen hcounted => exact .inr (.inr ⟨seen, hcounted, (Option.some.inj hs).symm⟩)
    · cases hs
  · cases hs

/-- A step succeeds exactly for a completion that has not run. -/
theorem step_isSome_iff : (step n result finish s i).isSome ↔ i < n ∧ (s.stages i).rank < 3 := by
  unfold step
  split
  · next hi =>
    cases s.stages i <;> simp [hi]
  · next hi => simp [hi]

/-- A step moves its completion one stage on and no other. -/
theorem rank_step (hs : step n result finish s i = some s') (j : Nat) :
    (s'.stages j).rank = (s.stages j).rank + if j = i then 1 else 0 := by
  obtain ⟨-, ⟨hidle, rfl⟩ | ⟨hstored, rfl⟩ | ⟨seen, hcounted, rfl⟩⟩ := step_cases hs <;>
    by_cases hj : j = i <;> simp_all

end Step

/-! ## The invariant -/

section Invariant

variable {s s' : State α β} {i : Nat}

theorem inv_init : Inv n result finish (State.init : State α β) where
  slot := by simp [State.init]
  seen_lt := by simp [State.init]
  seen_inj := by simp [State.init]
  counter_eq := by simp [State.init]
  calls_nil := fun _ => rfl
  calls_full := by simp [State.init]

/-- A completion that took `n - 1` was the last to take a number: every
completion has taken one. -/
theorem Inv.all_seen (h : Inv n result finish s) (hi : i < n) {c : Nat}
    (hc : (s.stages i).seen = some c) (hlast : c + 1 = n) :
    ∀ j < n, (s.stages j).seen.isSome := by
  have hle : n ≤ s.counter := by
    have := h.seen_lt i hi c hc
    omega
  -- as many numbers were taken as there are completions
  have hcard : ((Finset.range n).filter fun j => (s.stages j).seen.isSome).card =
      (Finset.range n).card := by
    apply le_antisymm (Finset.card_filter_le _ _)
    rw [Finset.card_range, ← h.counter_eq]
    exact hle
  intro j hj
  exact Finset.filter_card_eq hcard j (Finset.mem_range.mpr hj)

/-- Once every completion has taken a number, every slot holds its result. -/
theorem Inv.contents_eq (h : Inv n result finish s) (hall : ∀ j < n, (s.stages j).seen.isSome) :
    s.contents n = full n result := by
  apply List.map_congr_left
  intro j hj
  have hj : j < n := List.mem_range.mp hj
  rw [h.slot j hj, if_neg]
  intro hidle
  simpa [hidle] using hall j hj

/-- The numbers taken do not change when a step keeps every completion's
having taken one. -/
theorem card_filter_update {stages : Nat → Stage} {a : Stage}
    (ha : a.seen.isSome = (stages i).seen.isSome) :
    ((Finset.range n).filter fun j => (Function.update stages i a j).seen.isSome) =
      (Finset.range n).filter fun j => (stages j).seen.isSome := by
  apply Finset.filter_congr
  intro j _
  by_cases hj : j = i
  · subst hj
    simp [ha]
  · simp [Function.update_of_ne hj]

theorem Inv.store (h : Inv n result finish s) (hi : i < n) (hidle : s.stages i = .idle) :
    Inv n result finish { s with
      slots := Function.update s.slots i (some (result i))
      stages := Function.update s.stages i .stored } where
  slot j hj := by
    by_cases hji : j = i
    · subst hji
      simp
    · simp only [Function.update_of_ne hji]
      exact h.slot j hj
  seen_lt j hj c hc := by
    by_cases hji : j = i
    · subst hji
      simp at hc
    · simp only [Function.update_of_ne hji] at hc
      exact h.seen_lt j hj c hc
  seen_inj j hj k hk c hcj hck := by
    by_cases hji : j = i
    · subst hji
      simp at hcj
    · by_cases hki : k = i
      · subst hki
        simp at hck
      · simp only [Function.update_of_ne hji] at hcj
        simp only [Function.update_of_ne hki] at hck
        exact h.seen_inj j hj k hk c hcj hck
  counter_eq := by
    rw [card_filter_update (by simp [hidle])]
    exact h.counter_eq
  calls_nil hnone := h.calls_nil fun j hj seen hdone => by
    by_cases hji : j = i
    · subst hji
      rw [hidle] at hdone
      cases hdone
    · exact hnone j hj seen (by simp only [Function.update_of_ne hji]; exact hdone)
  calls_full j hj seen hdone hlast := by
    by_cases hji : j = i
    · subst hji
      simp at hdone
    · simp only [Function.update_of_ne hji] at hdone
      exact h.calls_full j hj seen hdone hlast

theorem Inv.count (h : Inv n result finish s) (hi : i < n) (hstored : s.stages i = .stored) :
    Inv n result finish { s with
      counter := s.counter + 1
      stages := Function.update s.stages i (.counted s.counter) } where
  slot j hj := by
    by_cases hji : j = i
    · subst hji
      simpa [hstored] using h.slot j hj
    · simp only [Function.update_of_ne hji]
      exact h.slot j hj
  seen_lt j hj c hc := by
    show c < s.counter + 1
    by_cases hji : j = i
    · subst hji
      simp at hc
      omega
    · simp only [Function.update_of_ne hji] at hc
      have := h.seen_lt j hj c hc
      omega
  seen_inj j hj k hk c hcj hck := by
    -- the number just taken is the counter, above every number taken before
    by_cases hji : j = i
    · subst hji
      by_cases hkj : k = j
      · exact hkj.symm
      · simp only [Function.update_self, Stage.seen_counted, Option.some.injEq] at hcj
        simp only [Function.update_of_ne hkj] at hck
        have := h.seen_lt k hk c hck
        omega
    · simp only [Function.update_of_ne hji] at hcj
      by_cases hki : k = i
      · subst hki
        simp only [Function.update_self, Stage.seen_counted, Option.some.injEq] at hck
        have := h.seen_lt j hj c hcj
        omega
      · simp only [Function.update_of_ne hki] at hck
        exact h.seen_inj j hj k hk c hcj hck
  counter_eq := by
    have hinsert : ((Finset.range n).filter fun j =>
        (Function.update s.stages i (.counted s.counter) j).seen.isSome) =
          insert i ((Finset.range n).filter fun j => (s.stages j).seen.isSome) := by
      ext j
      rw [Finset.mem_filter, Finset.mem_insert, Finset.mem_filter, Finset.mem_range]
      by_cases hji : j = i
      · subst hji
        simp [hi]
      · simp [hji]
    have hnew : i ∉ (Finset.range n).filter fun j => (s.stages j).seen.isSome := by
      simp [hstored]
    rw [hinsert, Finset.card_insert_of_notMem hnew, h.counter_eq]
  calls_nil hnone := h.calls_nil fun j hj seen hdone => by
    by_cases hji : j = i
    · subst hji
      rw [hstored] at hdone
      cases hdone
    · exact hnone j hj seen (by simp only [Function.update_of_ne hji]; exact hdone)
  calls_full j hj seen hdone hlast := by
    by_cases hji : j = i
    · subst hji
      simp at hdone
    · simp only [Function.update_of_ne hji] at hdone
      exact h.calls_full j hj seen hdone hlast

theorem Inv.test (h : Inv n result finish s) (hi : i < n) {seen : Nat}
    (hcounted : s.stages i = .counted seen) :
    Inv n result finish { s with
      stages := Function.update s.stages i (.done seen)
      calls := if seen + 1 = n then s.calls ++ [finish (s.contents n)] else s.calls } where
  slot j hj := by
    by_cases hji : j = i
    · subst hji
      simpa [hcounted] using h.slot j hj
    · simp only [Function.update_of_ne hji]
      exact h.slot j hj
  seen_lt j hj c hc := by
    by_cases hji : j = i
    · subst hji
      simp only [Function.update_self] at hc
      exact h.seen_lt j hj c (by rw [hcounted]; exact hc)
    · simp only [Function.update_of_ne hji] at hc
      exact h.seen_lt j hj c hc
  seen_inj j hj k hk c hcj hck := by
    -- passing the test keeps the number taken
    have hsame : ∀ l, (Function.update s.stages i (.done seen) l).seen = (s.stages l).seen := by
      intro l
      by_cases hli : l = i
      · subst hli
        simp [hcounted]
      · rw [Function.update_of_ne hli]
    rw [hsame] at hcj hck
    exact h.seen_inj j hj k hk c hcj hck
  counter_eq := by
    rw [card_filter_update (by simp [hcounted])]
    exact h.counter_eq
  calls_nil hnone := by
    have hnot : seen + 1 ≠ n := hnone i hi seen (by simp)
    rw [if_neg hnot]
    exact h.calls_nil fun j hj seen' hdone => by
      by_cases hji : j = i
      · subst hji
        rw [hcounted] at hdone
        cases hdone
      · exact hnone j hj seen' (by simp only [Function.update_of_ne hji]; exact hdone)
  calls_full j hj seen' hdone hlast := by
    by_cases hlast' : seen + 1 = n
    · -- this completion took the last number: no one has called before, and
      -- every slot is full
      rw [if_pos hlast']
      have hseen : (s.stages i).seen = some seen := by simp [hcounted]
      have hnil : s.calls = [] := h.calls_nil fun k hk seen'' hdone' hlast'' => by
        have hk' : (s.stages k).seen = some seen := by
          simp only [hdone', Stage.seen_done, Option.some.injEq]
          omega
        have hki := h.seen_inj k hk i hi seen hk' hseen
        subst hki
        rw [hcounted] at hdone'
        cases hdone'
      rw [hnil, h.contents_eq (h.all_seen hi hseen hlast'), List.nil_append]
    · rw [if_neg hlast']
      by_cases hji : j = i
      · subst hji
        simp only [Function.update_self, Stage.done.injEq] at hdone
        subst hdone
        exact absurd hlast hlast'
      · simp only [Function.update_of_ne hji] at hdone
        exact h.calls_full j hj seen' hdone hlast

/-- Every step keeps the invariant. -/
theorem Inv.step (h : Inv n result finish s) (hs : step n result finish s i = some s') :
    Inv n result finish s' := by
  obtain ⟨hi, ⟨hidle, rfl⟩ | ⟨hstored, rfl⟩ | ⟨seen, hcounted, rfl⟩⟩ := step_cases hs
  · exact h.store hi hidle
  · exact h.count hi hstored
  · exact h.test hi hcounted

/-- Every run keeps the invariant. -/
theorem Inv.run (h : Inv n result finish s) {order : List Nat}
    (hrun : run n result finish s order = some s') : Inv n result finish s' := by
  induction order generalizing s with
  | nil =>
      cases hrun
      exact h
  | cons i order ih =>
      obtain ⟨s₁, hs₁, hrest⟩ := Option.bind_eq_some_iff.mp hrun
      exact ih (h.step hs₁) hrest

/-- The continuation is called only once every completion has taken its
number. -/
theorem Inv.all_seen_of_calls (h : Inv n result finish s) (hcalls : s.calls ≠ []) :
    ∀ j < n, (s.stages j).seen.isSome := by
  by_contra hnot
  apply hcalls
  apply h.calls_nil
  intro i hi seen hdone hlast
  exact hnot (h.all_seen hi (by simp [hdone]) hlast)

/-- The continuation is never called twice. -/
theorem Inv.calls_length_le (h : Inv n result finish s) : s.calls.length ≤ 1 := by
  by_cases hsome : ∃ i < n, ∃ seen, s.stages i = .done seen ∧ seen + 1 = n
  · obtain ⟨i, hi, seen, hdone, hlast⟩ := hsome
    simp [h.calls_full i hi seen hdone hlast]
  · rw [h.calls_nil fun i hi seen hdone hlast => hsome ⟨i, hi, seen, hdone, hlast⟩]
    simp

end Invariant

/-! ## Complete runs -/

section Complete

/-- A run in which each completion takes no more than its remaining steps
goes through, and moves each completion on by its steps in the run. -/
theorem run_of_counts {order : List Nat} :
    ∀ {s : State α β}, (∀ i ∈ order, i < n) →
      (∀ i, (s.stages i).rank + order.count i ≤ 3) →
      ∃ s', run n result finish s order = some s' ∧
        ∀ i, (s'.stages i).rank = (s.stages i).rank + order.count i := by
  induction order with
  | nil =>
      intro s _ _
      exact ⟨s, rfl, fun i => by simp⟩
  | cons i order ih =>
      intro s hlt hcount
      -- the first step goes through: its completion has a step left
      have hstep : (step n result finish s i).isSome := by
        rw [step_isSome_iff]
        refine ⟨hlt i (by simp), ?_⟩
        have := hcount i
        simp only [List.count_cons_self] at this
        omega
      obtain ⟨s₁, hs₁⟩ := Option.isSome_iff_exists.mp hstep
      have hrank := rank_step hs₁
      obtain ⟨s', hrun, hs'⟩ := @ih s₁ (fun j hj => hlt j (List.mem_cons_of_mem _ hj))
        (fun j => by
          have := hcount j
          rw [hrank j, List.count_cons] at *
          split <;> simp_all <;> omega)
      refine ⟨s', by simp [run, hs₁, hrun], fun j => ?_⟩
      rw [hs' j, hrank j, List.count_cons]
      by_cases hj : j = i <;> simp [hj] <;> omega

/-- When each of the `n` completions takes its three steps, in any
interleaving, the run ends with every completion done and the continuation
called exactly once, with every result in its slot. -/
theorem run_complete {order : List Nat} (hn : 1 ≤ n) (hlt : ∀ i ∈ order, i < n)
    (hcount : ∀ i < n, order.count i = 3) :
    ∃ s, run n result finish (State.init : State α β) order = some s ∧
      s.calls = [finish (full n result)] := by
  -- from the start, each completion has its three steps to take
  have hinit : ∀ i, ((State.init : State α β).stages i).rank + order.count i ≤ 3 := by
    intro i
    by_cases hi : i < n
    · simp [State.init, hcount i hi]
    · simp [State.init, List.count_eq_zero.mpr fun h => hi (hlt i h)]
  obtain ⟨s, hrun, hrank⟩ : ∃ s, run n result finish (State.init : State α β) order = some s ∧
      ∀ i, (s.stages i).rank = ((State.init : State α β).stages i).rank + order.count i :=
    run_of_counts hlt hinit
  have h := inv_init.run hrun
  -- every completion is done; the one that took `n - 1` made the call
  have hdone : ∀ i < n, ∃ seen, s.stages i = .done seen := by
    intro i hi
    have := hrank i
    simp only [State.init, Stage.rank_idle, Nat.zero_add, hcount i hi] at this
    cases hst : s.stages i <;> simp_all
  have hall : ∀ i < n, (s.stages i).seen.isSome := by
    intro i hi
    obtain ⟨seen, hseen⟩ := hdone i hi
    simp [hseen]
  -- the numbers taken are those below `n`, so one completion took `n - 1`
  have hcounter : s.counter = n := by
    rw [h.counter_eq, Finset.filter_true_of_mem fun i hi => hall i (Finset.mem_range.mp hi),
      Finset.card_range]
  obtain ⟨i, hi, hlast⟩ : ∃ i < n, (s.stages i).seen = some (n - 1) := by
    by_contra hnone
    -- without `n - 1`, the `n` distinct numbers would all be below `n - 1`
    have hsub : ((Finset.range n).image fun i => ((s.stages i).seen.getD 0)) ⊆
        Finset.range (n - 1) := by
      intro c hc
      obtain ⟨i, hi, rfl⟩ := Finset.mem_image.mp hc
      have hi := Finset.mem_range.mp hi
      obtain ⟨c, hc⟩ := Option.isSome_iff_exists.mp (hall i hi)
      have hlt := h.seen_lt i hi c hc
      have hne : c ≠ n - 1 := fun hce => hnone ⟨i, hi, hce ▸ hc⟩
      simp only [hc, Option.getD_some, Finset.mem_range]
      omega
    have hinj : Set.InjOn (fun i => ((s.stages i).seen.getD 0)) (Finset.range n) := by
      intro i hi j hj hij
      have hi := Finset.mem_range.mp hi
      have hj := Finset.mem_range.mp hj
      obtain ⟨c, hc⟩ := Option.isSome_iff_exists.mp (hall i hi)
      obtain ⟨d, hd⟩ := Option.isSome_iff_exists.mp (hall j hj)
      simp only [hc, hd, Option.getD_some] at hij
      subst hij
      exact h.seen_inj i hi j hj c hc hd
    have := Finset.card_le_card hsub
    rw [Finset.card_image_of_injOn hinj, Finset.card_range, Finset.card_range] at this
    omega
  obtain ⟨seen, hseen⟩ := hdone i hi
  refine ⟨s, hrun, h.calls_full i hi seen hseen ?_⟩
  simp [hseen] at hlast
  omega

end Complete

end ControlPlane.Gather
