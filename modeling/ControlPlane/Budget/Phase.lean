import Mathlib.Order.Basic

/-!
# Transaction phases of the distributed privacy budget client

The coordinators of the privacy budget service run a two-phase-commit
protocol. The client drives it through the phases below; which phase comes
next is decided by `TransactionPhaseManagerImpl` from the phase just run and
the first non-successful result of that phase (or a success).

The phase graph that the manager is meant to walk is stated here as its own
relation; the manager's table is shown to stay inside it, and to climb a
height function on every edge, which is what later bounds the engine's
recursion.
-/

namespace ControlPlane.Budget

/-- The phases of a transaction (`TransactionPhase.java`). -/
inductive TransactionPhase
  | notStarted
  | begin
  | prepare
  | commit
  | notify
  | abort
  | «end»
  | unknown
  | finished
  deriving DecidableEq, Repr

/-- `ExecutionStatus.java`. -/
inductive ExecutionStatus
  | success
  | failure
  | retry
  deriving DecidableEq, Repr

/-- `StatusCode.java`, in its declaration order. -/
inductive StatusCode
  | unknown
  | ok
  | malformedData
  | mapEntryDoesNotExist
  | transactionManagerCannotInitialize
  | transactionManagerAlreadyStarted
  | transactionManagerNotStarted
  | transactionManagerCannotAcceptNewRequests
  | transactionManagerInvalidMaxConcurrentTransactionsValue
  | transactionManagerRetriesExceeded
  | transactionEngineCannotStartTransaction
  | transactionEngineCannotAcceptTransaction
  | transactionEngineInvalidDistributedCommand
  | transactionEngineTransactionIsExpired
  | transactionEngineTransactionFailed
  | transactionManagerAlreadyStopped
  | transactionManagerNotFinished
  | transactionManagerTransactionNotFound
  | transactionManagerInvalidTransactionLog
  | transactionManagerTerminatableTransaction
  | transactionManagerInvalidTransactionPhase
  | transactionManagerCurrentTransactionIsRunning
  | transactionManagerTransactionUnknown
  | privacyBudgetClientUnauthenticated
  | privacyBudgetClientUnauthorized
  deriving DecidableEq, Repr

/-- `ExecutionResult.java`: a status with a code. -/
structure ExecutionResult where
  executionStatus : ExecutionStatus
  statusCode : StatusCode
  deriving DecidableEq, Repr

namespace TransactionPhaseManagerImpl

/-- The phase table of `proceedToNextPhaseInternal`. -/
def proceedToNextPhaseInternal (currentPhase : TransactionPhase)
    (currentPhaseSucceeded : Bool) : TransactionPhase :=
  match currentPhase with
  | .notStarted => if currentPhaseSucceeded then .begin else .«end»
  | .begin => if currentPhaseSucceeded then .prepare else .abort
  | .prepare => if currentPhaseSucceeded then .commit else .«end»
  | .commit => if currentPhaseSucceeded then .notify else .abort
  | .notify => if currentPhaseSucceeded then .«end» else .notify
  | .abort => if currentPhaseSucceeded then .«end» else .abort
  | .«end» => .finished
  | _ => .unknown

/-- `proceedToNextPhase`: a retry stays in the phase, anything but a failure
counts as success. -/
def proceedToNextPhase (currentPhase : TransactionPhase)
    (currentPhaseResult : ExecutionResult) : TransactionPhase :=
  if currentPhase = .unknown then .abort
  else if currentPhaseResult.executionStatus = .retry then currentPhase
  else proceedToNextPhaseInternal currentPhase
    (decide (currentPhaseResult.executionStatus ≠ .failure))

theorem proceedToNextPhase_of_retry {p : TransactionPhase} {r : ExecutionResult}
    (hp : p ≠ .unknown) (hr : r.executionStatus = .retry) :
    proceedToNextPhase p r = p := by
  simp [proceedToNextPhase, hp, hr]

theorem proceedToNextPhase_of_success {p : TransactionPhase} {r : ExecutionResult}
    (hp : p ≠ .unknown) (hr : r.executionStatus = .success) :
    proceedToNextPhase p r = proceedToNextPhaseInternal p true := by
  simp [proceedToNextPhase, hp, hr]

theorem proceedToNextPhase_of_failure {p : TransactionPhase} {r : ExecutionResult}
    (hp : p ≠ .unknown) (hr : r.executionStatus = .failure) :
    proceedToNextPhase p r = proceedToNextPhaseInternal p false := by
  simp [proceedToNextPhase, hp, hr]

end TransactionPhaseManagerImpl

/-! ## The phase graph -/

/-- The edges of the protocol's phase graph: `NOTSTARTED → BEGIN →
{PREPARE | ABORT}`, `PREPARE → {COMMIT | END}`, `COMMIT → {NOTIFY | ABORT}`,
`NOTIFY → END`, `ABORT → END`, `END → FINISHED`. -/
inductive PhaseEdge : TransactionPhase → TransactionPhase → Prop
  | start : PhaseEdge .notStarted .begin
  | beginPrepare : PhaseEdge .begin .prepare
  | beginAbort : PhaseEdge .begin .abort
  | prepareCommit : PhaseEdge .prepare .commit
  | prepareEnd : PhaseEdge .prepare .«end»
  | commitNotify : PhaseEdge .commit .notify
  | commitAbort : PhaseEdge .commit .abort
  | notifyEnd : PhaseEdge .notify .«end»
  | abortEnd : PhaseEdge .abort .«end»
  | endFinished : PhaseEdge .«end» .finished

/-- One move of a run through the graph: an edge or a self-loop. -/
def PhaseMove (p q : TransactionPhase) : Prop := p = q ∨ PhaseEdge p q

/-- How many edges a phase can still take before `FINISHED`. -/
def height : TransactionPhase → Nat
  | .notStarted => 6
  | .begin => 5
  | .prepare => 4
  | .commit => 3
  | .notify => 2
  | .abort => 2
  | .«end» => 1
  | .unknown => 0
  | .finished => 0

theorem PhaseEdge.height_lt {p q : TransactionPhase} (h : PhaseEdge p q) :
    height q < height p := by
  cases h <;> decide

/-- The phases the engine dispatches to coordinators. -/
def Distributed (p : TransactionPhase) : Prop :=
  p = .begin ∨ p = .prepare ∨ p = .commit ∨ p = .notify ∨ p = .abort ∨
    p = .«end»

namespace TransactionPhaseManagerImpl

/-- From a distributed phase the table either stays or takes an edge of the
graph. -/
theorem proceedToNextPhase_move {p : TransactionPhase} (hp : Distributed p)
    (r : ExecutionResult) : PhaseMove p (proceedToNextPhase p r) := by
  rcases hp with rfl | rfl | rfl | rfl | rfl | rfl <;>
    rcases r with ⟨_ | _ | _, _⟩ <;>
    simp only [PhaseMove, proceedToNextPhase, proceedToNextPhaseInternal,
      reduceCtorEq, if_false, if_true, ne_eq, not_false_eq_true,
      decide_true, decide_false, not_true_eq_false, true_or] <;>
    exact Or.inr (by constructor)

/-- The engine's first call: the initial successful result leaves
`NOTSTARTED` along the graph. -/
theorem proceedToNextPhase_notStarted {r : ExecutionResult}
    (hr : r.executionStatus = .success) :
    proceedToNextPhase .notStarted r = .begin := by
  simp [proceedToNextPhase, hr, proceedToNextPhaseInternal]

end TransactionPhaseManagerImpl

end ControlPlane.Budget
