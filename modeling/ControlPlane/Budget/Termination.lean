import ControlPlane.Budget.Engine
import Mathlib.Data.List.Chain
import Mathlib.Data.List.Nodup

/-!
# Every transaction run ends, along the phase graph

`execute` terminates for every list of coordinators and every way they
answer. The argument is the lexicographic one the engine's bookkeeping
suggests: a continuing step either climbs an edge of the phase graph, which
lowers `height`, or stays in its phase and spends one of the
`DEFAULT_RETRIES` retries, which are reset only on a change of phase.

The same invariant also bounds what a run does: the phases executed form a
path of the graph in which only self-loops repeat, no phase is executed more
than `DEFAULT_RETRIES` times, and no coordinator entry is asked more often
than that in one phase.
-/

namespace ControlPlane.Budget

namespace TransactionEngineImpl

variable {ι U : Type} [DecidableEq ι]
variable (privacyBudgetClients : List ι)
variable (respond : Nat → ι → TransactionPhase → PhaseReply U)

/-- Calls in the run to the coordinator entry `i` in phase `q`. -/
def dispatchCount (run : Run ι U) (i : Nat) (q : TransactionPhase) : Nat :=
  (run.dispatches.filter fun d => d.entry = i ∧ d.phase = q).length

/-- The invariant of the engine's loop at `(p, run)`, where `p` is the phase
that `proceedToNextPhase` is about to be called with. -/
structure LoopInv (p : TransactionPhase) (run : Run ι U) : Prop where
  currentPhase_eq : run.transaction.currentPhase = p
  start : p = .notStarted →
    run.transaction.currentPhaseExecutionResult.executionStatus = .success
  distributed : p ≠ .notStarted → Distributed p
  retries_pos : 0 < run.transaction.retries
  retries_le : run.transaction.retries ≤ defaultRetries
  path : List.IsChain PhaseMove (.notStarted :: run.rounds)
  last_eq : (TransactionPhase.notStarted :: run.rounds).getLast
    (List.cons_ne_nil _ _) = p
  height_le : ∀ q ∈ run.rounds, height p ≤ height q
  count_current : (run.rounds.count p : Int) + run.transaction.retries ≤
    defaultRetries + 1
  count_other : ∀ q, q ≠ p → run.rounds.count q ≤ defaultRetries.toNat
  dispatchCount_le : ∀ i q, dispatchCount run i q ≤ run.rounds.count q

omit [DecidableEq ι] in
theorem loopInv_init : LoopInv .notStarted (Run.init : Run ι U) where
  currentPhase_eq := rfl
  start _ := rfl
  distributed h := absurd rfl h
  retries_pos := by simp [Run.init, Transaction.init, defaultRetries]
  retries_le := Int.le_refl _
  path := List.IsChain.singleton _
  last_eq := rfl
  height_le := by simp [Run.init]
  count_current := by simp [Run.init, Transaction.init, defaultRetries]
  count_other := by simp [Run.init]
  dispatchCount_le := by simp [Run.init, dispatchCount]

omit [DecidableEq ι] in
/-- From a loop state, the manager's answer is a move of the phase graph. -/
theorem LoopInv.move {p q : TransactionPhase} {run run' : Run ι U}
    (hinv : LoopInv p run) (hc : Continues p q run run') : PhaseMove p q := by
  rw [hc.next_eq]
  by_cases hp : p = .notStarted
  · subst hp
    rw [TransactionPhaseManagerImpl.proceedToNextPhase_notStarted (hinv.start rfl)]
    exact Or.inr .start
  · exact TransactionPhaseManagerImpl.proceedToNextPhase_move (hinv.distributed hp) _

omit [DecidableEq ι] in
/-- A round asks each entry at most once. -/
private theorem filter_entry_length_le_one {ds : List (Dispatch ι)}
    (hn : (ds.map (·.entry)).Nodup) (i : Nat) (q : TransactionPhase) :
    (ds.filter fun d => d.entry = i ∧ d.phase = q).length ≤ 1 := by
  rw [← List.countP_eq_length_filter]
  calc ds.countP (fun d => d.entry = i ∧ d.phase = q)
      ≤ ds.countP (fun d => d.entry = i) := List.countP_mono_left (by simp +contextual)
    _ = (ds.map (·.entry)).count i := by
        rw [List.count_eq_countP, List.countP_map]
        exact List.countP_congr (by simp)
    _ ≤ 1 := List.nodup_iff_count_le_one.mp hn i

omit [DecidableEq ι] in
/-- A round of phase `q` adds at most one call per entry, all in phase `q`. -/
theorem dispatchCount_append {run run' : Run ι U} {q : TransactionPhase}
    {ds : List (Dispatch ι)} (hd : run'.dispatches = run.dispatches ++ ds)
    (hn : (ds.map (·.entry)).Nodup) (hm : ∀ d ∈ ds, d.phase = q) (i : Nat)
    (q' : TransactionPhase) :
    dispatchCount run' i q' ≤ dispatchCount run i q' + if q' = q then 1 else 0 := by
  have hnew : (ds.filter fun d => d.entry = i ∧ d.phase = q').length ≤
      if q' = q then 1 else 0 := by
    split_ifs with hq
    · exact filter_entry_length_le_one hn i q'
    · -- every call of the round is in phase `q`
      have hnil : (ds.filter fun d => d.entry = i ∧ d.phase = q') = [] := by
        refine List.filter_eq_nil_iff.mpr fun d hd => ?_
        simp [hm d hd, Ne.symm hq]
      rw [hnil]
      exact Nat.zero_le _
  simp only [dispatchCount, hd, List.filter_append, List.length_append]
  omega

omit [DecidableEq ι] in
/-- The invariant is kept by every continuing step. -/
theorem LoopInv.step {p q : TransactionPhase} {run run' : Run ι U}
    (hinv : LoopInv p run) (hc : Continues p q run run') : LoopInv q run' := by
  have hmove := hinv.move hc
  -- a change of phase climbs an edge, so the new phase was never executed
  have hheight : q = p ∨ height q < height p := hmove.imp Eq.symm PhaseEdge.height_lt
  have hfresh : q ≠ p → run.rounds.count q = 0 := by
    intro hqp
    refine List.count_eq_zero.mpr fun hq => ?_
    have := hinv.height_le q hq
    rcases hheight with h | h
    · exact hqp h
    · omega
  have hcount (x : TransactionPhase) :
      run'.rounds.count x = run.rounds.count x + if x = q then 1 else 0 := by
    rw [hc.rounds_eq, List.count_append, List.count_singleton]
    by_cases hx : x = q
    · simp [hx]
    · simp [hx, Ne.symm hx]
  obtain ⟨ds, hd, hn, hm⟩ := hc.dispatches_eq
  have hr := hc.retries_eq
  have hr₀ := hinv.retries_pos
  have hr₁ := hinv.retries_le
  have hc₀ := hinv.count_current
  refine
    { currentPhase_eq := hc.currentPhase_eq'
      start := fun hq => by
        subst hq
        rcases hc.distributed with h | h | h | h | h | h <;> cases h
      distributed := fun _ => hc.distributed
      retries_pos := hc.retries_pos
      retries_le := ?_
      path := ?_
      last_eq := by simp [hc.rounds_eq]
      height_le := ?_
      count_current := ?_
      count_other := ?_
      dispatchCount_le := ?_ }
  · rw [hr]
    split_ifs
    · omega
    · exact Int.le_refl _
  · rw [hc.rounds_eq, ← List.cons_append]
    refine hinv.path.append (List.IsChain.singleton q) ?_
    intro x hx y hy
    simp only [List.head?_cons, Option.mem_def, Option.some.injEq] at hy
    rw [List.getLast?_eq_some_getLast (List.cons_ne_nil _ _), hinv.last_eq,
      Option.mem_def, Option.some.injEq] at hx
    exact hx ▸ hy ▸ hmove
  · intro x hx
    rw [hc.rounds_eq, List.mem_append, List.mem_singleton] at hx
    rcases hx with hx | rfl
    · have := hinv.height_le x hx
      rcases hheight with rfl | h
      · exact this
      · omega
    · exact Nat.le_refl _
  · rw [hcount q, if_pos rfl, hr]
    by_cases hqp : q = p
    · subst hqp
      simp only [if_true]
      push_cast
      omega
    · rw [if_neg hqp, hfresh hqp]
      simp [defaultRetries]
  · intro x hx
    rw [hcount x, if_neg hx, Nat.add_zero]
    by_cases hxp : x = p
    · subst hxp
      have : (run.rounds.count x : Int) ≤ defaultRetries := by omega
      simp [defaultRetries] at this ⊢
      omega
    · exact hinv.count_other x hxp
  · intro i x
    have h₁ := dispatchCount_append hd hn hm i x
    have h₂ := hinv.dispatchCount_le i x
    rw [hcount x]
    omega

omit [DecidableEq ι] in
/-- What the invariant says of a run that ends at this state. -/
theorem LoopInv.bounds {p : TransactionPhase} {run : Run ι U}
    (hinv : LoopInv p run) :
    (∀ q, run.rounds.count q ≤ defaultRetries.toNat) ∧
      ∀ i q, dispatchCount run i q ≤ defaultRetries.toNat := by
  have hcount (q : TransactionPhase) : run.rounds.count q ≤ defaultRetries.toNat := by
    by_cases hq : q = p
    · subst hq
      have h₁ := hinv.count_current
      have h₂ := hinv.retries_pos
      simp [defaultRetries] at h₁ ⊢
      omega
    · exact hinv.count_other q hq
  exact ⟨hcount, fun i q => (hinv.dispatchCount_le i q).trans (hcount q)⟩

/-- The potential of a loop state: the retries left in this phase, and a full
set of retries for each phase still below it. -/
def potential (s : TransactionPhase × Run ι U) : Nat :=
  defaultRetries.toNat * (height s.1 - 1) + s.2.transaction.retries.toNat

omit [DecidableEq ι] in
theorem potential_lt {p q : TransactionPhase} {run run' : Run ι U}
    (hinv : LoopInv p run) (hc : Continues p q run run') :
    potential (q, run') < potential (p, run) := by
  have hr := hc.retries_eq
  have hr₀ := hinv.retries_pos
  have hq₁ : 1 ≤ height q := by
    rcases hc.distributed with h | h | h | h | h | h <;> simp [h, height]
  have h5 : defaultRetries.toNat = 5 := rfl
  rcases hinv.move hc with rfl | hedge
  · -- a self-loop spends one retry
    simp only [if_true] at hr
    simp only [potential, hr, h5]
    omega
  · -- an edge lowers the height and resets the retries
    have hlt := hedge.height_lt
    have hqp : q ≠ p := fun h => by rw [h] at hlt; omega
    simp only [if_neg hqp] at hr
    simp only [potential, hr, h5]
    have : 5 * (height q - 1) + 5 ≤ 5 * (height p - 1) := by omega
    omega

/-- `execute` ends, by a return or an exception, for every list of
coordinators and every answer of theirs; the phases it executes form a path
of the phase graph on which only self-loops repeat, each phase is executed
at most `DEFAULT_RETRIES` times, and each coordinator entry is asked at most
`DEFAULT_RETRIES` times in each phase. -/
theorem execute_terminates :
    ∃ e run, executeRun privacyBudgetClients respond = some (e, run) ∧
      List.IsChain PhaseMove (.notStarted :: run.rounds) ∧
      (∀ q, run.rounds.count q ≤ defaultRetries.toNat) ∧
      ∀ i q, dispatchCount run i q ≤ defaultRetries.toNat := by
  let P : TransactionPhase × Run ι U → Prop := fun s => LoopInv s.1 s.2
  let Q : Ending × Run ι U → Prop := fun r =>
    List.IsChain PhaseMove (.notStarted :: r.2.rounds) ∧
      (∀ q, r.2.rounds.count q ≤ defaultRetries.toNat) ∧
      ∀ i q, dispatchCount r.2 i q ≤ defaultRetries.toNat
  have hdec : Loop.Decreasing (proceedToNextPhase privacyBudgetClients respond) P
      potential := by
    rintro ⟨p, run⟩ ⟨q, run'⟩ hinv h
    have hc := proceedToNextPhase_eq_inl privacyBudgetClients respond h
    exact ⟨hinv.step hc, potential_lt hinv hc⟩
  have hkeeps : Loop.Keeps P Q (proceedToNextPhase privacyBudgetClients respond) := by
    rintro ⟨p, run⟩ hinv
    refine ⟨fun ⟨q, run'⟩ h => hinv.step
      (proceedToNextPhase_eq_inl privacyBudgetClients respond h), ?_⟩
    rintro ⟨e, run'⟩ h
    obtain ⟨hs, hd⟩ := proceedToNextPhase_eq_inr privacyBudgetClients respond h
    obtain ⟨hcount, hdisp⟩ := hinv.bounds
    refine ⟨hs ▸ hinv.path, hs ▸ hcount, fun i q => ?_⟩
    simpa only [dispatchCount, hd] using hdisp i q
  have hinit : P (.notStarted, Run.init) := loopInv_init
  obtain ⟨⟨e, run⟩, hrun⟩ := Loop.run_isSome_of_decreasing _ P potential hdec
    executeFuel _ hinit
    (by simp [potential, Run.init, Transaction.init, executeFuel, defaultRetries, height])
  exact ⟨e, run, hrun, Loop.run_invariant P Q hkeeps hinit hrun⟩

end TransactionEngineImpl

end ControlPlane.Budget
