import ControlPlane.Budget.Engine

/-!
# What a normal return of `execute` reports

`DistributedPrivacyBudgetClientImpl.consumePrivacyBudget` treats a normal
return of `execute` with no exhausted units as a successful consumption of
the budget. The engine's comment says what decides it: "whether the budget
consumption was successful or not depends on if ABORT was invoked". The
phase manager, however, sends a failed `PREPARE` to `END` and not to
`ABORT`, so `transactionFailed` is never set on that path, and a `PREPARE`
that a coordinator refused without reporting exhausted budgets (for example
with `401`, which the client turns into `PRIVACY_BUDGET_CLIENT_UNAUTHENTICATED`)
ends in a normal return with an empty list. The engine's own test expects an
exception carrying that status code, with a mocked manager that sends the
failure to `ABORT`.
-/

namespace ControlPlane.Budget

namespace TransactionEngineImpl

variable {ι U : Type} [DecidableEq ι]

/-- `COMMIT` succeeded on every coordinator of the list during the run. -/
def CommitSucceeded (privacyBudgetClients : List ι) (run : Run ι U) : Prop :=
  ∀ c ∈ privacyBudgetClients, ∃ d ∈ run.dispatches,
    d.coordinator = c ∧ d.phase = .commit ∧ d.result.executionStatus = .success

instance (privacyBudgetClients : List ι) (run : Run ι U) :
    Decidable (CommitSucceeded privacyBudgetClients run) :=
  inferInstanceAs (Decidable (∀ c ∈ privacyBudgetClients, ∃ d ∈ run.dispatches,
    d.coordinator = c ∧ d.phase = .commit ∧ d.result.executionStatus = .success))

/-- A normal return without exhausted units happens only after `COMMIT`
succeeded on every coordinator. -/
def ReportsOnlyCommitted (privacyBudgetClients : List ι)
    (respond : Nat → ι → TransactionPhase → PhaseReply U) : Prop :=
  ∀ run, executeRun privacyBudgetClients respond = some (.returned, run) →
    run.transaction.exhaustedPrivacyBudgetUnits = [] →
      CommitSucceeded privacyBudgetClients run

/-- Two coordinators; the second answers `PREPARE` with an authentication
failure, and both fail `END`. -/
def unauthenticatedPrepare : Nat → Nat → TransactionPhase → PhaseReply Nat :=
  fun _ c p =>
    if p = .prepare ∧ c = 1 then ⟨⟨.failure, .privacyBudgetClientUnauthenticated⟩, none⟩
    else if p = .«end» then ⟨⟨.failure, .unknown⟩, none⟩
    else ⟨⟨.success, .ok⟩, none⟩

/-- The transaction above returns normally with no exhausted units, although
no coordinator was ever asked to `COMMIT`: every coordinator's last completed
phase is below `COMMIT`. -/
theorem execute_returns_after_failed_prepare :
    ¬ ReportsOnlyCommitted [0, 1] unauthenticatedPrepare := by
  intro h
  have hmap : (executeRun [0, 1] unauthenticatedPrepare).map (fun r =>
      decide (r.1 = .returned ∧ r.2.transaction.exhaustedPrivacyBudgetUnits = [] ∧
        ¬ CommitSucceeded [0, 1] r.2 ∧
        r.2.transaction.lastCompletedTransactionPhaseOnPrivacyBudgetServer 0 =
          .prepare ∧
        r.2.transaction.lastCompletedTransactionPhaseOnPrivacyBudgetServer 1 =
          .begin)) = some true := by
    decide
  obtain ⟨⟨e, run⟩, hrun, hdec⟩ := Option.map_eq_some_iff.mp hmap
  obtain ⟨rfl, hex, hnot, -⟩ := of_decide_eq_true hdec
  exact hnot (h run hrun hex)

end TransactionEngineImpl

end ControlPlane.Budget
