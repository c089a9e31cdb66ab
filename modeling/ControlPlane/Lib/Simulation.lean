import Mathlib.Logic.Relation
import Mathlib.Data.List.Forall2

/-!
# Fallible runs and forward simulation

A client session applies calls one after another to a state; the first call
that fails ends the session with its error. Two models of one component, a
concrete one and an abstract one, agree on a call when it fails on both with
the same error or succeeds on both in related states. A relation that every
call keeps in this sense is kept by whole sessions, so a session of the
concrete model succeeds exactly when the abstract one does, in related states.

Facts about the states of a session then come in two forms: an invariant of
every successful call holds after every successful session, and a relation
that links the state before a successful call to the state after it links,
closed under reflexivity and transitivity, the start and the end of a session.

A step that cannot fail is a fold, and an invariant of the steps of a run's
events holds at its end. When only some events may come in a state, the run
is admitted event by event, and an invariant of the admitted steps holds at
the end of every admitted run.

A loop that collects one value per element and stops at the first element
without one is `List.mapM` in `Option`; when it gets through, it has a value
for each element, in order.
-/

namespace ControlPlane.Simulation

variable {ε σ τ ι : Type*}

/-- Apply the calls from the first to the last; the first failure ends the
session with its error. -/
def runAll (step : σ → ι → Except ε σ) : σ → List ι → Except ε σ
  | s, [] => .ok s
  | s, u :: us =>
      match step s u with
      | .ok s' => runAll step s' us
      | .error e => .error e

section Run

variable {step : σ → ι → Except ε σ}

@[simp] theorem runAll_nil (s : σ) : runAll step s [] = .ok s := rfl

theorem runAll_cons_of_ok {s s' : σ} {u : ι} (us : List ι) (h : step s u = .ok s') :
    runAll step s (u :: us) = runAll step s' us := by
  simp only [runAll, h]

theorem runAll_cons_of_error {s : σ} {u : ι} {e : ε} (us : List ι) (h : step s u = .error e) :
    runAll step s (u :: us) = .error e := by
  simp only [runAll, h]

/-- A successful session is a successful first call and a successful rest. -/
theorem runAll_cons_eq_ok {s s'' : σ} {u : ι} {us : List ι} :
    runAll step s (u :: us) = .ok s'' ↔ ∃ s', step s u = .ok s' ∧ runAll step s' us = .ok s'' := by
  constructor
  · intro h
    cases hs : step s u with
    | ok s' => exact ⟨s', rfl, by rwa [runAll_cons_of_ok us hs] at h⟩
    | error e => rw [runAll_cons_of_error us hs] at h; cases h
  · rintro ⟨s', hs, h⟩
    rwa [runAll_cons_of_ok us hs]

/-- A successful session split in two is two successful sessions. -/
theorem runAll_append_eq_ok {s s'' : σ} {us₁ us₂ : List ι} :
    runAll step s (us₁ ++ us₂) = .ok s'' ↔
      ∃ s', runAll step s us₁ = .ok s' ∧ runAll step s' us₂ = .ok s'' := by
  induction us₁ generalizing s with
  | nil => simp
  | cons u us₁ ih =>
      rw [List.cons_append, runAll_cons_eq_ok]
      constructor
      · rintro ⟨s₁, h₁, h⟩
        obtain ⟨s', h', h₂⟩ := ih.mp h
        exact ⟨s', runAll_cons_eq_ok.mpr ⟨s₁, h₁, h'⟩, h₂⟩
      · rintro ⟨s', h', h₂⟩
        obtain ⟨s₁, h₁, h⟩ := runAll_cons_eq_ok.mp h'
        exact ⟨s₁, h₁, ih.mpr ⟨s', h, h₂⟩⟩

/-- An invariant of every successful call holds after every successful
session. -/
theorem runAll_invariant (P : σ → Prop) (hstep : ∀ s u s', P s → step s u = .ok s' → P s') :
    ∀ {s s' : σ} {us : List ι}, P s → runAll step s us = .ok s' → P s'
  | s, s', [], hs, h => by
      rw [runAll_nil, Except.ok.injEq] at h
      exact h ▸ hs
  | s, s', u :: us, hs, h => by
      obtain ⟨s₁, h₁, h⟩ := runAll_cons_eq_ok.mp h
      exact runAll_invariant P hstep (hstep s u s₁ hs h₁) h

/-- A relation between the states before and after every successful call
holds, closed under reflexivity and transitivity, between the start and the
end of every successful session. -/
theorem runAll_reflTransGen (r : σ → σ → Prop) (hstep : ∀ s u s', step s u = .ok s' → r s s') :
    ∀ {s s' : σ} {us : List ι}, runAll step s us = .ok s' → Relation.ReflTransGen r s s'
  | s, s', [], h => by
      rw [runAll_nil, Except.ok.injEq] at h
      exact h ▸ Relation.ReflTransGen.refl
  | s, s', u :: us, h => by
      obtain ⟨s₁, h₁, h⟩ := runAll_cons_eq_ok.mp h
      exact Relation.ReflTransGen.head (hstep s u s₁ h₁) (runAll_reflTransGen r hstep h)

end Run

/-- A step that cannot fail: a property that every step by an event of the
run keeps holds at the end of the run. -/
theorem foldl_invariant (step : σ → ι → σ) (P : σ → Prop) (Q : ι → Prop)
    (hstep : ∀ s u, Q u → P s → P (step s u)) :
    ∀ {s : σ} {us : List ι}, (∀ u ∈ us, Q u) → P s → P (us.foldl step s) := by
  intro s us
  induction us generalizing s with
  | nil => exact fun _ hs => hs
  | cons u us ih =>
    intro hQ hs
    exact ih (fun u' hu' => hQ u' (List.mem_cons_of_mem u hu'))
      (hstep s u (hQ u List.mem_cons_self) hs)

/-- Every event of the run is admitted by `Q` in the state the run has reached
when the event comes. -/
def Admitted (step : σ → ι → σ) (Q : σ → ι → Prop) : σ → List ι → Prop
  | _, [] => True
  | s, u :: us => Q s u ∧ Admitted step Q (step s u) us

instance Admitted.decidable (step : σ → ι → σ) (Q : σ → ι → Prop) [∀ s u, Decidable (Q s u)] :
    ∀ (s : σ) (us : List ι), Decidable (Admitted step Q s us)
  | _, [] => isTrue trivial
  | s, u :: us =>
      haveI := Admitted.decidable step Q (step s u) us
      inferInstanceAs (Decidable (Q s u ∧ Admitted step Q (step s u) us))

/-- A property that every admitted step keeps holds at the end of every
admitted run. -/
theorem foldl_invariant_of_admitted (step : σ → ι → σ) (P : σ → Prop) (Q : σ → ι → Prop)
    (hstep : ∀ s u, Q s u → P s → P (step s u)) :
    ∀ {s : σ} {us : List ι}, Admitted step Q s us → P s → P (us.foldl step s)
  | _, [], _, hs => hs
  | s, u :: _, ⟨hu, hus⟩, hs =>
      foldl_invariant_of_admitted step P Q hstep (s := step s u) hus (hstep s u hu hs)

/-- Two results agree: the same error on both sides, or values related by
`R`. -/
inductive ExceptRel (R : σ → τ → Prop) : Except ε σ → Except ε τ → Prop
  | error (e : ε) : ExceptRel R (.error e) (.error e)
  | ok {s : σ} {t : τ} : R s t → ExceptRel R (.ok s) (.ok t)

namespace ExceptRel

variable {R : σ → τ → Prop}

/-- When the abstract side succeeds, so does the concrete one, in a related
state. -/
theorem exists_of_ok_right {x : Except ε σ} {t : τ} (h : ExceptRel R x (.ok t)) :
    ∃ s, x = .ok s ∧ R s t := by
  cases h with
  | ok hst => exact ⟨_, rfl, hst⟩

/-- When the concrete side succeeds, so does the abstract one, in a related
state. -/
theorem exists_of_ok_left {s : σ} {y : Except ε τ} (h : ExceptRel R (.ok s) y) :
    ∃ t, y = .ok t ∧ R s t := by
  cases h with
  | ok hst => exact ⟨_, rfl, hst⟩

/-- Agreement survives mapping both values by maps that carry the relation. -/
theorem map {σ' τ' : Type _} {R' : σ' → τ' → Prop} {f : σ → σ'} {g : τ → τ'}
    (hfg : ∀ s t, R s t → R' (f s) (g t)) {x : Except ε σ} {y : Except ε τ}
    (h : ExceptRel R x y) : ExceptRel R' (x.map f) (y.map g) := by
  cases h with
  | error e => exact .error e
  | ok hst => exact .ok (hfg _ _ hst)

end ExceptRel

/-- `R` is a forward simulation of the abstract calls by the concrete ones:
from related states, each call agrees on both. -/
def Simulates (R : σ → τ → Prop) (step₁ : σ → ι → Except ε σ) (step₂ : τ → ι → Except ε τ) :
    Prop :=
  ∀ s t u, R s t → ExceptRel R (step₁ s u) (step₂ t u)

/-- A simulation of each call is a simulation of whole sessions. -/
theorem runAll_simulates {R : σ → τ → Prop} {step₁ : σ → ι → Except ε σ}
    {step₂ : τ → ι → Except ε τ} (hsim : Simulates R step₁ step₂) :
    ∀ {s : σ} {t : τ} (us : List ι), R s t → ExceptRel R (runAll step₁ s us) (runAll step₂ t us)
  | s, t, [], hst => .ok hst
  | s, t, u :: us, hst => by
      have hrel := hsim s t u hst
      cases h₁ : step₁ s u with
      | error e₁ =>
          cases h₂ : step₂ t u with
          | error e₂ =>
              rw [h₁, h₂] at hrel
              cases hrel
              rw [runAll_cons_of_error us h₁, runAll_cons_of_error us h₂]
              exact .error _
          | ok t' =>
              rw [h₁, h₂] at hrel
              cases hrel
      | ok s' =>
          cases h₂ : step₂ t u with
          | error e₂ =>
              rw [h₁, h₂] at hrel
              cases hrel
          | ok t' =>
              rw [h₁, h₂] at hrel
              cases hrel with
              | ok h =>
                  rw [runAll_cons_of_ok us h₁, runAll_cons_of_ok us h₂]
                  exact runAll_simulates hsim us h

/-- A collecting loop gets through exactly when every element has a value, and
then collects those values in order. -/
theorem mapM_eq_some_iff {α β : Type*} {f : α → Option β} {l : List α} {ys : List β} :
    l.mapM f = some ys ↔ List.Forall₂ (fun a b => f a = some b) l ys := by
  induction l generalizing ys with
  | nil => cases ys <;> simp
  | cons a l ih =>
      cases ys with
      | nil => simp [Option.bind_eq_some_iff]
      | cons y ys => simp [Option.bind_eq_some_iff, ← ih]

end ControlPlane.Simulation
