import ControlPlane.Lib.Loop
import ControlPlane.Budget.Phase

/-!
# The transaction engine of the distributed privacy budget client

`TransactionEngineImpl.execute` runs one transaction against a list of
coordinators. In the source `proceedToNextPhase`, `executeCurrentPhase` and
`executeDistributedPhase` call each other, every call in tail position; the
model takes one `proceedToNextPhase` together with the round of coordinator
calls it starts as one step of a `Loop`, and the tail call back into
`proceedToNextPhase` as the loop's next iteration.

A coordinator call is answered by `respond`, which sees the index of the call
in the run, the coordinator and the phase, so that every assignment of
results to calls, adaptive or not, is one `respond`. The run keeps two logs
the source does not store: the calls made (`dispatches`) and the phases
executed (`rounds`). They are what the protocol's properties talk about.
-/

namespace ControlPlane.Budget

/-- `Transaction.DEFAULT_RETRIES`. -/
def defaultRetries : Int := 5

/-- `Transaction.java`: the fields that the engine reads or writes. The map
`lastCompletedTransactionPhaseOnPrivacyBudgetServer` is read with
`getOrDefault(..., NOTSTARTED)`, so it is a total function here. -/
structure Transaction (ι U : Type) where
  currentPhase : TransactionPhase
  currentPhaseExecutionResult : ExecutionResult
  transactionExecutionResult : ExecutionResult
  transactionPhaseFailed : Bool
  transactionFailed : Bool
  currentPhaseFailed : Bool
  lastCompletedTransactionPhaseOnPrivacyBudgetServer : ι → TransactionPhase
  retries : Int
  exhaustedPrivacyBudgetUnits : List U

/-- The constructor `Transaction()`. -/
def Transaction.init {ι U : Type} : Transaction ι U where
  currentPhase := .notStarted
  currentPhaseExecutionResult := ⟨.success, .ok⟩
  transactionExecutionResult := ⟨.failure, .transactionManagerNotFinished⟩
  transactionPhaseFailed := false
  transactionFailed := false
  currentPhaseFailed := false
  lastCompletedTransactionPhaseOnPrivacyBudgetServer := fun _ => .notStarted
  retries := defaultRetries
  exhaustedPrivacyBudgetUnits := []

/-- What one call of a `PrivacyBudgetClient` action gives back: its result,
and the units that the client stored into the transaction when the
coordinator reported exhausted budgets. -/
structure PhaseReply (U : Type) where
  result : ExecutionResult
  exhaustedUnits : Option (List U)

/-- One coordinator call: the entry of the coordinator list it went to, that
coordinator, the phase and the result. -/
structure Dispatch (ι : Type) where
  entry : Nat
  coordinator : ι
  phase : TransactionPhase
  result : ExecutionResult

/-- The engine's state during `execute`: the transaction and the two logs. -/
structure Run (ι U : Type) where
  transaction : Transaction ι U
  dispatches : List (Dispatch ι)
  rounds : List TransactionPhase

def Run.init {ι U : Type} : Run ι U := ⟨Transaction.init, [], []⟩

/-- How a call of `execute` ends: normally, or by a
`TransactionEngineException` with its status code. -/
inductive Ending
  | returned
  | threw (statusCode : StatusCode)
  deriving DecidableEq, Repr

namespace TransactionEngineImpl

variable {ι U : Type} [DecidableEq ι]
variable (privacyBudgetClients : List ι)
variable (respond : Nat → ι → TransactionPhase → PhaseReply U)

/-- `PARTIAL_SUCCESS_ACCEPTABLE_PHASES`: `NOTIFY ↦ 1`, `END ↦ 0`. -/
def partialSuccessAcceptablePhases : TransactionPhase → Option Nat
  | .notify => some 1
  | .«end» => some 0
  | _ => none

/-- `createTransactionEngineException`, as the status code it carries. -/
def createTransactionEngineException
    (transactionStatusCode defaultStatusCode : StatusCode) : StatusCode :=
  if transactionStatusCode = .privacyBudgetClientUnauthenticated ∨
      transactionStatusCode = .privacyBudgetClientUnauthorized then
    transactionStatusCode
  else defaultStatusCode

/-- `getCountOfPhaseSuccessAgainstCoordinators`. -/
def getCountOfPhaseSuccessAgainstCoordinators (transaction : Transaction ι U)
    (transactionPhase : TransactionPhase) : Nat :=
  privacyBudgetClients.countP fun c =>
    transaction.lastCompletedTransactionPhaseOnPrivacyBudgetServer c =
      transactionPhase

/-- `canMarkTransactionAsSuccessful`. -/
def canMarkTransactionAsSuccessful (phase : TransactionPhase)
    (transaction : Transaction ι U) : Bool :=
  match partialSuccessAcceptablePhases phase with
  | some required =>
      decide (required ≤
        getCountOfPhaseSuccessAgainstCoordinators privacyBudgetClients
          transaction phase)
  | none => false

/-- `dispatchDistributedCommand`: the action is chosen by the transaction's
current phase. -/
def dispatchDistributedCommand (c : ι) (run : Run ι U) :
    Except StatusCode (PhaseReply U) :=
  match run.transaction.currentPhase with
  | .begin | .prepare | .commit | .notify | .abort | .«end» =>
      .ok (respond run.dispatches.length c run.transaction.currentPhase)
  | _ => .error .transactionManagerInvalidTransactionPhase

/-- The skip rule of `executeDistributedPhase`: a coordinator that never
began is only asked to `BEGIN`, and one that ended is not asked again. -/
def skipsCoordinator (last currentPhase : TransactionPhase) : Bool :=
  (last = .notStarted && currentPhase != .begin) || last = .«end»

/-- The effect of one answered call on the transaction: the first failure of
the phase is kept, a success is recorded against the coordinator. -/
def recordReply (currentPhase : TransactionPhase) (c : ι)
    (reply : PhaseReply U) (t : Transaction ι U) : Transaction ι U :=
  let t := match reply.exhaustedUnits with
    | some units => { t with exhaustedPrivacyBudgetUnits := units }
    | none => t
  if reply.result.executionStatus ≠ .success then
    if !t.currentPhaseFailed then
      { t with currentPhaseFailed := true,
               currentPhaseExecutionResult := reply.result }
    else t
  else
    { t with lastCompletedTransactionPhaseOnPrivacyBudgetServer :=
        (Function.update t.lastCompletedTransactionPhaseOnPrivacyBudgetServer
          c currentPhase) }

/-- One iteration of the loop of `executeDistributedPhase`, for the
coordinator at position `entry`. -/
def executeOnCoordinator (currentPhase : TransactionPhase) (entry : Nat)
    (c : ι) (run : Run ι U) : Except StatusCode (Run ι U) :=
  if skipsCoordinator
      (run.transaction.lastCompletedTransactionPhaseOnPrivacyBudgetServer c)
      currentPhase then .ok run
  else
    match dispatchDistributedCommand respond c run with
    | .error e => .error e
    | .ok reply =>
        .ok { run with
          transaction := recordReply currentPhase c reply run.transaction
          dispatches := run.dispatches ++
            [⟨entry, c, run.transaction.currentPhase, reply.result⟩] }

/-- The loop of `executeDistributedPhase` over the coordinators from
position `entry` on. -/
def executeOnCoordinators (currentPhase : TransactionPhase) :
    Nat → List ι → Run ι U → Except StatusCode (Run ι U)
  | _, [], run => .ok run
  | entry, c :: cs, run =>
      match executeOnCoordinator respond currentPhase entry c run with
      | .error e => .error e
      | .ok run => executeOnCoordinators currentPhase (entry + 1) cs run

/-- `executeCurrentPhase` and the loop of `executeDistributedPhase` (their
closing call of `proceedToNextPhase` is the next step of the loop). -/
def executeCurrentPhase (run : Run ι U) : Except StatusCode (Run ι U) :=
  let run := { run with rounds := run.rounds ++ [run.transaction.currentPhase] }
  match run.transaction.currentPhase with
  | .begin | .prepare | .commit | .notify | .abort | .«end» =>
      executeOnCoordinators respond run.transaction.currentPhase 0
        privacyBudgetClients run
  | _ => .error .transactionManagerInvalidTransactionPhase

/-- The retry bookkeeping of `proceedToNextPhase`. -/
def updateRetries (currentPhase nextPhase : TransactionPhase)
    (t : Transaction ι U) : Transaction ι U :=
  if nextPhase = currentPhase then { t with retries := t.retries - 1 }
  else { t with retries := defaultRetries }

/-- The first failed phase is kept as the transaction's result; the current
phase's failure is cleared before the next phase. -/
def recordPhaseFailure (t : Transaction ι U) : Transaction ι U :=
  if t.currentPhaseFailed then
    let t := if !t.transactionPhaseFailed then
        { t with transactionPhaseFailed := true,
                 transactionExecutionResult := t.currentPhaseExecutionResult }
      else t
    { t with currentPhaseFailed := false,
             currentPhaseExecutionResult := ⟨.success, .ok⟩ }
  else t

/-- `proceedToNextPhase(currentPhase, transaction)` up to its call of
`executeCurrentPhase`: either the method returns or throws (`inr`), or the
next phase has been executed and the loop continues with it (`inl`). -/
def proceedToNextPhase (state : TransactionPhase × Run ι U) :
    (TransactionPhase × Run ι U) ⊕ (Ending × Run ι U) :=
  let (currentPhase, run) := state
  let t := run.transaction
  let nextPhase := TransactionPhaseManagerImpl.proceedToNextPhase currentPhase
    t.currentPhaseExecutionResult
  if nextPhase = .finished then
    if t.transactionFailed then
      .inr (.threw (createTransactionEngineException
        t.transactionExecutionResult.statusCode
        .transactionEngineTransactionFailed), run)
    else .inr (.returned, run)
  else
    let t := if nextPhase = .abort then { t with transactionFailed := true } else t
    if nextPhase = .unknown then
      if currentPhase = .begin then
        .inr (.threw (createTransactionEngineException
          t.currentPhaseExecutionResult.statusCode
          .transactionEngineCannotStartTransaction), { run with transaction := t })
      else .inr (.threw .transactionManagerTransactionUnknown,
        { run with transaction := t })
    else
      let t := updateRetries currentPhase nextPhase t
      if t.retries ≤ 0 then
        -- a partial success of `NOTIFY` or `END` still ends the transaction
        if canMarkTransactionAsSuccessful privacyBudgetClients currentPhase t then
          .inr (.returned, { run with transaction := t })
        else .inr (.threw .transactionManagerRetriesExceeded,
          { run with transaction := t })
      else
        let t := recordPhaseFailure t
        if t.currentPhase ≠ currentPhase then .inr (.returned, { run with transaction := t })
        else
          let run := { run with transaction := { t with currentPhase := nextPhase } }
          match executeCurrentPhase privacyBudgetClients respond run with
          | .error e => .inr (.threw e, run)
          | .ok run => .inl (nextPhase, run)

/-- Enough fuel for every run (`execute_terminates` shows that none runs
out): six phases of at most `DEFAULT_RETRIES` rounds each, and the call that
finishes. -/
def executeFuel : Nat := 6 * defaultRetries.toNat + 1

/-- `execute`, with the final state of the run. -/
def executeRun : Option (Ending × Run ι U) :=
  Loop.run (proceedToNextPhase privacyBudgetClients respond) executeFuel
    (.notStarted, Run.init)

/-- `execute`: the exhausted units on a normal return, or the exception's
status code. -/
def execute : Option (Except StatusCode (List U)) :=
  (executeRun privacyBudgetClients respond).map fun
    | (.returned, run) => .ok run.transaction.exhaustedPrivacyBudgetUnits
    | (.threw code, _) => .error code

/-! ## What a round of coordinator calls changes -/

@[simp] theorem recordReply_currentPhase (p : TransactionPhase) (c : ι)
    (reply : PhaseReply U) (t : Transaction ι U) :
    (recordReply p c reply t).currentPhase = t.currentPhase := by
  unfold recordReply
  split <;> dsimp only <;> split_ifs <;> rfl

@[simp] theorem recordReply_retries (p : TransactionPhase) (c : ι)
    (reply : PhaseReply U) (t : Transaction ι U) :
    (recordReply p c reply t).retries = t.retries := by
  unfold recordReply
  split <;> dsimp only <;> split_ifs <;> rfl

/-- `after` follows `before` by at most one call, to entry `entry` in
`before`'s current phase; the phase, the retries and the rounds are kept. -/
structure CallExtends (entry : Nat) (before after : Run ι U) : Prop where
  currentPhase_eq : after.transaction.currentPhase = before.transaction.currentPhase
  retries_eq : after.transaction.retries = before.transaction.retries
  rounds_eq : after.rounds = before.rounds
  dispatches_eq : after.dispatches = before.dispatches ∨
    ∃ d, after.dispatches = before.dispatches ++ [d] ∧ d.entry = entry ∧
      d.phase = before.transaction.currentPhase

/-- `after` follows `before` by calls in `before`'s current phase to distinct
entries from `entry` on; the phase, the retries and the rounds are kept. -/
structure RoundExtends (entry : Nat) (before after : Run ι U) : Prop where
  currentPhase_eq : after.transaction.currentPhase = before.transaction.currentPhase
  retries_eq : after.transaction.retries = before.transaction.retries
  rounds_eq : after.rounds = before.rounds
  dispatches_eq : ∃ ds, after.dispatches = before.dispatches ++ ds ∧
    (ds.map (·.entry)).Nodup ∧
    ∀ d ∈ ds, entry ≤ d.entry ∧ d.phase = before.transaction.currentPhase

omit [DecidableEq ι] in
theorem RoundExtends.refl (entry : Nat) (run : Run ι U) :
    RoundExtends entry run run :=
  ⟨rfl, rfl, rfl, [], by simp, by simp, by simp⟩

omit [DecidableEq ι] in
/-- A call to entry `entry` followed by calls to later entries. -/
theorem RoundExtends.cons {entry : Nat} {run₀ run₁ run₂ : Run ι U}
    (h₁ : CallExtends entry run₀ run₁) (h₂ : RoundExtends (entry + 1) run₁ run₂) :
    RoundExtends entry run₀ run₂ := by
  obtain ⟨hp₁, hr₁, hs₁, hd₁⟩ := h₁
  obtain ⟨hp₂, hr₂, hs₂, ds₂, hd₂, hn₂, hm₂⟩ := h₂
  have hlater : ∀ d ∈ ds₂, entry < d.entry ∧
      d.phase = run₀.transaction.currentPhase := fun d hd =>
    ⟨(hm₂ d hd).1, (hm₂ d hd).2.trans hp₁⟩
  refine ⟨hp₂.trans hp₁, hr₂.trans hr₁, hs₂.trans hs₁, ?_⟩
  rcases hd₁ with hd₁ | ⟨d, hd₁, he, hph⟩
  · exact ⟨ds₂, by rw [hd₂, hd₁], hn₂,
      fun d hd => ⟨Nat.le_of_lt (hlater d hd).1, (hlater d hd).2⟩⟩
  · refine ⟨d :: ds₂, by rw [hd₂, hd₁, List.append_assoc, List.singleton_append], ?_, ?_⟩
    · -- the first call went to `entry`, the later ones to larger entries
      refine List.nodup_cons.mpr ⟨?_, hn₂⟩
      intro hmem
      obtain ⟨d', hd', hde⟩ := List.mem_map.mp hmem
      have := (hlater d' hd').1
      simp only at hde
      omega
    · intro d' hd'
      rcases List.mem_cons.mp hd' with rfl | hd'
      · exact ⟨Nat.le_of_eq he.symm, hph⟩
      · exact ⟨Nat.le_of_lt (hlater d' hd').1, (hlater d' hd').2⟩

theorem executeOnCoordinator_callExtends {p : TransactionPhase} {entry : Nat}
    {c : ι} {run run' : Run ι U}
    (h : executeOnCoordinator respond p entry c run = .ok run') :
    CallExtends entry run run' := by
  unfold executeOnCoordinator at h
  split at h
  · cases h
    exact ⟨rfl, rfl, rfl, .inl rfl⟩
  · split at h
    · cases h
    · cases h
      exact ⟨by simp, by simp, rfl, .inr ⟨_, rfl, rfl, rfl⟩⟩

theorem executeOnCoordinators_roundExtends {p : TransactionPhase} :
    ∀ {entry : Nat} {cs : List ι} {run run' : Run ι U},
      executeOnCoordinators respond p entry cs run = .ok run' →
        RoundExtends entry run run'
  | entry, [], run, run', h => by
      cases h
      exact RoundExtends.refl entry run
  | entry, c :: cs, run, run', h => by
      unfold executeOnCoordinators at h
      split at h
      · cases h
      · rename_i run₁ h₁
        exact RoundExtends.cons (executeOnCoordinator_callExtends respond h₁)
          (executeOnCoordinators_roundExtends h)

/-- A round runs only in a distributed phase, records it, and extends the run
by calls in that phase. -/
theorem executeCurrentPhase_spec {run run' : Run ι U}
    (h : executeCurrentPhase privacyBudgetClients respond run = .ok run') :
    Distributed run.transaction.currentPhase ∧
      RoundExtends 0
        { run with rounds := run.rounds ++ [run.transaction.currentPhase] } run' := by
  unfold executeCurrentPhase at h
  dsimp only at h
  split at h <;>
    first
    | exact ⟨by simp_all [Distributed], executeOnCoordinators_roundExtends respond h⟩
    | cases h

omit [DecidableEq ι] in
@[simp] theorem updateRetries_currentPhase (p q : TransactionPhase)
    (t : Transaction ι U) : (updateRetries p q t).currentPhase = t.currentPhase := by
  unfold updateRetries
  split_ifs <;> rfl

omit [DecidableEq ι] in
@[simp] theorem recordPhaseFailure_currentPhase (t : Transaction ι U) :
    (recordPhaseFailure t).currentPhase = t.currentPhase := by
  unfold recordPhaseFailure
  split_ifs <;> rfl

omit [DecidableEq ι] in
@[simp] theorem recordPhaseFailure_retries (t : Transaction ι U) :
    (recordPhaseFailure t).retries = t.retries := by
  unfold recordPhaseFailure
  split_ifs <;> rfl

omit [DecidableEq ι] in
theorem updateRetries_retries (p q : TransactionPhase) (t : Transaction ι U) :
    (updateRetries p q t).retries =
      if q = p then t.retries - 1 else defaultRetries := by
  unfold updateRetries
  split_ifs <;> rfl

/-- Everything a continuing step of `proceedToNextPhase` from phase `p` to
phase `q` does: `q` is the manager's answer and a distributed phase, the
retries were decremented on a self-loop and reset otherwise and are still
positive, and one round of `q` was executed. -/
structure Continues (p q : TransactionPhase) (run run' : Run ι U) : Prop where
  next_eq : q = TransactionPhaseManagerImpl.proceedToNextPhase p
    run.transaction.currentPhaseExecutionResult
  currentPhase_eq : run.transaction.currentPhase = p
  distributed : Distributed q
  currentPhase_eq' : run'.transaction.currentPhase = q
  retries_eq : run'.transaction.retries =
    if q = p then run.transaction.retries - 1 else defaultRetries
  retries_pos : 0 < run'.transaction.retries
  rounds_eq : run'.rounds = run.rounds ++ [q]
  dispatches_eq : ∃ ds, run'.dispatches = run.dispatches ++ ds ∧
    (ds.map (·.entry)).Nodup ∧ ∀ d ∈ ds, d.phase = q

theorem proceedToNextPhase_eq_inl {p q : TransactionPhase} {run run' : Run ι U}
    (h : proceedToNextPhase privacyBudgetClients respond (p, run) = .inl (q, run')) :
    Continues p q run run' := by
  unfold proceedToNextPhase at h
  dsimp only at h
  -- the branches that end the method are closed by `split_ifs`; what is
  -- left is the call of `executeCurrentPhase`, with or without `ABORT`
  split_ifs at h
  all_goals
    rename_i hret hcur
    split at h
    · cases h
    · rename_i run₀ hrun
      cases h
      obtain ⟨hdist, hext⟩ := executeCurrentPhase_spec privacyBudgetClients respond hrun
      obtain ⟨hp', hr', hs', ds, hd, hn, hm⟩ := hext
      simp only [recordPhaseFailure_currentPhase, updateRetries_currentPhase, ne_eq,
        not_not] at hcur
      simp only [recordPhaseFailure_retries, updateRetries_retries] at hr' hret
      refine ⟨rfl, hcur, hdist, hp', ?_, ?_, hs', ds, hd, hn, fun d hd => (hm d hd).2⟩
      · simpa [updateRetries_retries] using hr'
      · rw [hr']
        split_ifs at hret ⊢ <;> simp_all

/-- A step that ends the method leaves both logs as they were. -/
theorem proceedToNextPhase_eq_inr {p : TransactionPhase} {e : Ending}
    {run run' : Run ι U}
    (h : proceedToNextPhase privacyBudgetClients respond (p, run) = .inr (e, run')) :
    run'.rounds = run.rounds ∧ run'.dispatches = run.dispatches := by
  unfold proceedToNextPhase at h
  dsimp only at h
  split_ifs at h
  all_goals first
    | (cases h; exact ⟨rfl, rfl⟩)
    | (split at h <;> cases h; exact ⟨rfl, rfl⟩)

end TransactionEngineImpl

end ControlPlane.Budget
