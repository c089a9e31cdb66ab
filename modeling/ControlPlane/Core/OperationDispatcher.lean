import Mathlib
import ControlPlane.Core.Common
import ControlPlane.Lib.Loop
import ControlPlane.Lib.Retry

/-!
# The operation dispatcher's retries

`OperationDispatcher::Dispatch` (src/cc/core/common/operation_dispatcher)
replaces the context's callback by one that dispatches again when the result
is a Retry, and calls `DispatchWithRetry`. That runs the target at once on the
first call; later calls first give up when the retry count has reached the
strategy's maximum, when the context has expired or has no time left for the
back-off, or when the executor refuses the operation, and otherwise schedule
it. Every attempt runs on a copy of the context, finished either by the
dispatcher (when the target returns a failure) or by the target itself.

The chain of copies is a loop over the retry count. Its state is the count of
the copy and the events so far: the target invoked, and the original
callback called.

## Implementation notes

The three dispatch methods install the same test on the finishing call (the
consumer-streaming one also passes its non-finishing calls straight through),
so one loop models all three. The clock is read once per attempt and the
executor answers once per attempt, so both are functions of the retry count.
The loop runs on fuel, and two more steps than the strategy's maximum always
suffice (`dispatch_terminates`).
-/

namespace ControlPlane.Core

open ControlPlane

def scDispatcher : Nat := 0x0009

def scDispatcherExhaustedRetries : StatusCode := makeErrorCode scDispatcher 0x0001

def scDispatcherOperationExpired : StatusCode := makeErrorCode scDispatcher 0x0002

def scDispatcherNotEnoughTimeRemainedForOperation : StatusCode :=
  makeErrorCode scDispatcher 0x0003

inductive RetryStrategyType where
  | linear
  | exponential
  deriving DecidableEq, Repr

structure RetryStrategy where
  retryStrategyType : RetryStrategyType
  delayDurationMs : Nat
  maximumAllowedRetryCount : Nat
  deriving DecidableEq, Repr

def RetryStrategy.getBackOffDurationInMilliseconds (strategy : RetryStrategy)
    (retryCount : Nat) : Nat :=
  if retryCount = 0 then 0
  else
    match strategy.retryStrategyType with
    | .linear => retryCount * strategy.delayDurationMs
    | .exponential => 2 ^ (retryCount - 1) * strategy.delayDurationMs

/-- The back-off converted to nanoseconds, the unit of the steady clock. -/
def RetryStrategy.backOffDurationNs (strategy : RetryStrategy) (retryCount : Nat) : Nat :=
  strategy.getBackOffDurationInMilliseconds retryCount * 1000000

/-- The fields of `AsyncContext` the dispatcher reads. -/
structure AsyncContext where
  retryCount : Nat
  expirationTime : Nat
  deriving DecidableEq, Repr

/-- What `dispatch_to_target_function` does with the copy it is given. -/
inductive TargetCall where
  /-- Returns `result`; the dispatcher finishes the copy with it when it is
  not a success. -/
  | returns (result : ExecutionResult)
  /-- Returns a success and finishes the copy with `result`. -/
  | finishes (result : ExecutionResult)
  deriving DecidableEq, Repr

/-- The result the call leaves in the context. -/
def TargetCall.result : TargetCall → ExecutionResult
  | .returns r => r
  | .finishes r => r

/-- The call finishes the copy: it does not return a success without
finishing it. -/
def TargetCall.completes : TargetCall → Bool
  | .returns r => !r.successful
  | .finishes _ => true

/-- The steady clock and the executor's answer to `ScheduleFor`, at each
retry count. -/
structure Environment where
  currentTime : Nat → Nat
  scheduleFor : Nat → ExecutionResult

/-- Retry `k` of a context expiring at `expirationTime` goes ahead: the
executor takes it, and the context outlives its back-off. -/
def Environment.Allows (env : Environment) (strategy : RetryStrategy)
    (expirationTime k : Nat) : Prop :=
  env.scheduleFor k = successExecutionResult ∧
    env.currentTime k + strategy.backOffDurationNs k < expirationTime

inductive Event where
  /-- The target runs on the copy at this retry count. -/
  | invoke (retryCount : Nat)
  /-- The original callback runs, on a copy with this result and count. -/
  | callback (result : ExecutionResult) (retryCount : Nat)
  deriving DecidableEq, Repr

/-- The call ends in a Retry. -/
def TargetCall.isRetry (c : TargetCall) : Bool := decide (c.result.status = .retry)

/-- How many of the first `n` calls, from the first on, end in a Retry. -/
def leadingRetries (target : Nat → TargetCall) (n : Nat) : Nat :=
  Retry.leading (fun k => (target k).isRetry) n

def Event.isInvoke : Event → Bool
  | .invoke _ => true
  | .callback .. => false

def Event.isCallback : Event → Bool
  | .invoke _ => false
  | .callback .. => true

@[simp] theorem Event.isInvoke_invoke (k : Nat) : (Event.invoke k).isInvoke = true := rfl

@[simp] theorem Event.isCallback_invoke (k : Nat) : (Event.invoke k).isCallback = false := rfl

@[simp] theorem Event.isCallback_callback (r : ExecutionResult) (k : Nat) :
    (Event.callback r k).isCallback = true := rfl

/-- The callback a dispatch that may retry up to `maximum` times should end
with: the first call that is not a Retry, at its count, or EXHAUSTED at the
maximum. -/
def finalCallback (maximum : Nat) (target : Nat → TargetCall) : Event :=
  if leadingRetries target maximum < maximum then
    .callback (target (leadingRetries target maximum)).result (leadingRetries target maximum)
  else .callback (failureExecutionResult scDispatcherExhaustedRetries) maximum

/-- The callback `Dispatch` installs, on a copy finished at retry count `k`:
a Retry dispatches again with the count one up, anything else goes to the
original callback. -/
def wrappedCallback (k : Nat) (result : ExecutionResult) : Nat ⊕ Event :=
  if result.status = .retry then .inl (k + 1) else .inr (.callback result k)

section Dispatch

variable (strategy : RetryStrategy) (env : Environment) (target : Nat → TargetCall)

/-- The lambda `DispatchWithRetry` runs: the target on the copy at retry
count `k`, and the result the copy is finished with, if any. -/
def asyncOperation (k : Nat) : List Event × Option ExecutionResult :=
  ([.invoke k],
    match target k with
    | .returns r => if r.successful then none else some r
    | .finishes r => some r)

/-- `DispatchWithRetry` of the copy at retry count `k`: its events and the
result the copy is finished with. -/
def dispatchWithRetry (expirationTime k : Nat) : List Event × Option ExecutionResult :=
  if k = 0 then asyncOperation target k
  else if strategy.maximumAllowedRetryCount ≤ k then
    ([], some (failureExecutionResult scDispatcherExhaustedRetries))
  else if expirationTime ≤ env.currentTime k then
    ([], some (failureExecutionResult scDispatcherOperationExpired))
  else if expirationTime - env.currentTime k ≤ strategy.backOffDurationNs k then
    ([], some (failureExecutionResult scDispatcherNotEnoughTimeRemainedForOperation))
  else if (env.scheduleFor k).successful then asyncOperation target k
  else ([], some (env.scheduleFor k))

/-- One copy of the chain: its `DispatchWithRetry`, then the wrapped callback
on the result it is finished with. -/
def dispatchStep (expirationTime : Nat) (s : Nat × List Event) :
    (Nat × List Event) ⊕ List Event :=
  let attempt := dispatchWithRetry strategy env target expirationTime s.1
  match attempt.2 with
  | none => .inr (s.2 ++ attempt.1)
  | some result =>
      match wrappedCallback s.1 result with
      | .inl k => .inl (k, s.2 ++ attempt.1)
      | .inr event => .inr (s.2 ++ attempt.1 ++ [event])

/-- `Dispatch` of a context: the events of the whole chain of copies. -/
def dispatch (ctx : AsyncContext) : Option (List Event) :=
  Loop.run (dispatchStep strategy env target ctx.expirationTime)
    (strategy.maximumAllowedRetryCount + 2) (ctx.retryCount, [])

end Dispatch

section Proofs

variable {strategy : RetryStrategy} {env : Environment} {target : Nat → TargetCall}

theorem asyncOperation_of_completes {k : Nat} (h : (target k).completes = true) :
    asyncOperation target k = ([.invoke k], some (target k).result) := by
  unfold asyncOperation
  cases hc : target k with
  | returns r =>
      rw [hc, TargetCall.completes, Bool.not_eq_true'] at h
      simp [h, TargetCall.result]
  | finishes r => rfl

theorem dispatchWithRetry_zero (expirationTime : Nat) :
    dispatchWithRetry strategy env target expirationTime 0 = asyncOperation target 0 :=
  if_pos rfl

theorem dispatchWithRetry_of_exhausted {expirationTime k : Nat} (hk : k ≠ 0)
    (hM : strategy.maximumAllowedRetryCount ≤ k) :
    dispatchWithRetry strategy env target expirationTime k =
      ([], some (failureExecutionResult scDispatcherExhaustedRetries)) := by
  rw [dispatchWithRetry, if_neg hk, if_pos hM]

theorem dispatchWithRetry_of_allows {expirationTime k : Nat} (hk : k ≠ 0)
    (hM : k < strategy.maximumAllowedRetryCount) (ha : env.Allows strategy expirationTime k) :
    dispatchWithRetry strategy env target expirationTime k = asyncOperation target k := by
  obtain ⟨hs, ht⟩ := ha
  have hsucc : (env.scheduleFor k).successful = true := by rw [hs]; rfl
  rw [dispatchWithRetry, if_neg hk, if_neg (by omega), if_neg (by omega), if_neg (by omega),
    if_pos hsucc]

/-- An attempt never calls the original callback itself. -/
theorem dispatchWithRetry_countP_isCallback (expirationTime k : Nat) :
    (dispatchWithRetry strategy env target expirationTime k).1.countP Event.isCallback = 0 := by
  unfold dispatchWithRetry asyncOperation
  split_ifs <;> simp [Event.isCallback]

/-- An attempt at a count the retries have used up never asks for another. -/
theorem dispatchWithRetry_retry {expirationTime k : Nat} {r : ExecutionResult}
    (h : (dispatchWithRetry strategy env target expirationTime k).2 = some r)
    (hr : r.status = .retry) : k = 0 ∨ k < strategy.maximumAllowedRetryCount := by
  by_contra hne
  rw [not_or, Nat.not_lt] at hne
  rw [dispatchWithRetry_of_exhausted hne.1 hne.2, Option.some.injEq] at h
  subst h
  simp [failureExecutionResult] at hr

/-- When the target's calls complete, every attempt is finished. -/
theorem dispatchWithRetry_isSome (htarget : ∀ k, (target k).completes = true)
    (expirationTime k : Nat) :
    (dispatchWithRetry strategy env target expirationTime k).2.isSome := by
  unfold dispatchWithRetry
  split_ifs <;> simp [asyncOperation_of_completes (htarget k)]

theorem dispatchStep_of_retry {expirationTime : Nat} {s : Nat × List Event} {r : ExecutionResult}
    (h : (dispatchWithRetry strategy env target expirationTime s.1).2 = some r)
    (hr : r.status = .retry) :
    dispatchStep strategy env target expirationTime s =
      .inl (s.1 + 1, s.2 ++ (dispatchWithRetry strategy env target expirationTime s.1).1) := by
  simp only [dispatchStep, h, wrappedCallback, if_pos hr]

theorem dispatchStep_of_final {expirationTime : Nat} {s : Nat × List Event} {r : ExecutionResult}
    (h : (dispatchWithRetry strategy env target expirationTime s.1).2 = some r)
    (hr : r.status ≠ .retry) :
    dispatchStep strategy env target expirationTime s =
      .inr (s.2 ++ (dispatchWithRetry strategy env target expirationTime s.1).1 ++
        [.callback r s.1]) := by
  simp only [dispatchStep, h, wrappedCallback, if_neg hr]

/-- A step that goes on moves to the next count, from the first one or one
below the maximum, and adds no callback. -/
theorem dispatchStep_continue {expirationTime : Nat} {s s' : Nat × List Event}
    (h : dispatchStep strategy env target expirationTime s = .inl s') :
    s'.1 = s.1 + 1 ∧ (s.1 = 0 ∨ s.1 < strategy.maximumAllowedRetryCount) ∧
      s'.2.countP Event.isCallback = s.2.countP Event.isCallback := by
  cases hr : (dispatchWithRetry strategy env target expirationTime s.1).2 with
  | none => simp [dispatchStep, hr] at h
  | some r =>
      by_cases hrt : r.status = .retry
      · rw [dispatchStep_of_retry hr hrt, Sum.inl.injEq] at h
        subst h
        refine ⟨rfl, dispatchWithRetry_retry hr hrt, ?_⟩
        rw [List.countP_append, dispatchWithRetry_countP_isCallback, Nat.add_zero]
      · rw [dispatchStep_of_final hr hrt] at h
        cases h

/-- `Dispatch` always ends: the chain of copies is never longer than the
retries allow, whatever the target, the clock and the executor do. -/
theorem dispatch_terminates (strategy : RetryStrategy) (env : Environment)
    (target : Nat → TargetCall) (ctx : AsyncContext) :
    ∃ events, dispatch strategy env target ctx = some events := by
  -- the potential is the number of counts left below the maximum, plus one
  have hdec : Loop.Decreasing (dispatchStep strategy env target ctx.expirationTime)
      (fun _ => True) (fun s => strategy.maximumAllowedRetryCount + 1 - s.1) := by
    intro s s' _ hs
    obtain ⟨hk, hlt, -⟩ := dispatchStep_continue hs
    refine ⟨trivial, ?_⟩
    dsimp only
    omega
  exact Loop.run_isSome_of_decreasing _ _ _ hdec _ _ trivial (by omega)

/-- When the target's calls complete, `Dispatch` calls the original callback
exactly once, as its last event, for every clock, executor and context. -/
theorem dispatch_calls_back_once (htarget : ∀ k, (target k).completes = true)
    (ctx : AsyncContext) :
    ∃ events, dispatch strategy env target ctx = some events ∧
      events.countP Event.isCallback = 1 ∧ (events.getLast?.map Event.isCallback) = some true := by
  have hprog : Loop.Progress (dispatchStep strategy env target ctx.expirationTime)
      (fun s => s.2.countP Event.isCallback = 0)
      (fun events => events.countP Event.isCallback = 1 ∧
        (events.getLast?.map Event.isCallback) = some true)
      (fun s => strategy.maximumAllowedRetryCount + 1 - s.1) := by
    intro s hs
    obtain ⟨r, hr⟩ := Option.isSome_iff_exists.mp
      (dispatchWithRetry_isSome htarget ctx.expirationTime s.1)
    by_cases hrt : r.status = .retry
    · -- a Retry: the chain goes on, one count up
      have hstep := dispatchStep_of_retry hr hrt
      obtain ⟨-, hlt, hcount⟩ := dispatchStep_continue hstep
      refine .inr ⟨_, hstep, hcount.trans hs, ?_⟩
      dsimp only
      omega
    · -- any other result goes to the original callback, and the chain ends
      refine .inl ⟨_, dispatchStep_of_final hr hrt, ?_, ?_⟩
      · simp [List.countP_append, hs, dispatchWithRetry_countP_isCallback, Event.isCallback]
      · simp [Event.isCallback]
  have hpot : strategy.maximumAllowedRetryCount + 1 - ctx.retryCount <
      strategy.maximumAllowedRetryCount + 2 := by omega
  exact Loop.run_of_progress hprog rfl hpot

/-- The call at the leading count, when inside the first `n`, is the first
that is not a Retry. -/
theorem leadingRetries_first_final {n : Nat} (h : leadingRetries target n < n) :
    (target (leadingRetries target n)).isRetry = false ∧
      ∀ j < leadingRetries target n, (target j).isRetry = true :=
  ⟨Retry.leading_not h, fun _ hj => Retry.lt_leading hj⟩

/-- A context whose retry count has already reached the maximum is finished
with EXHAUSTED at once: the target never runs. -/
theorem dispatch_of_used_retry_count {ctx : AsyncContext} (hk : ctx.retryCount ≠ 0)
    (hM : strategy.maximumAllowedRetryCount ≤ ctx.retryCount) :
    dispatch strategy env target ctx =
      some [.callback (failureExecutionResult scDispatcherExhaustedRetries) ctx.retryCount] := by
  have hatt : dispatchWithRetry strategy env target ctx.expirationTime ctx.retryCount =
      ([], some (failureExecutionResult scDispatcherExhaustedRetries)) :=
    dispatchWithRetry_of_exhausted hk hM
  have hstep := dispatchStep_of_final (s := (ctx.retryCount, [])) (by rw [hatt])
    (by simp [failureExecutionResult])
  rw [dispatch, Loop.run_succ_of_stop _ hstep, hatt]
  rfl

/-- A context that arrives with retry count 1, dispatched with at most one
retry to a target that succeeds: the target never runs. -/
theorem dispatch_skips_target_of_retried_context :
    dispatch ⟨.exponential, 10, 1⟩ ⟨fun _ => 0, fun _ => successExecutionResult⟩
        (fun _ => .finishes successExecutionResult) ⟨1, 1000000000000⟩ =
      some [.callback (failureExecutionResult scDispatcherExhaustedRetries) 1] := by
  decide

/-- Below the maximum, an attempt the environment allows runs the target. -/
theorem dispatchWithRetry_of_lt {expirationTime k : Nat}
    (henv : ∀ k, 0 < k → k < strategy.maximumAllowedRetryCount →
      env.Allows strategy expirationTime k)
    (hk : k < strategy.maximumAllowedRetryCount) :
    dispatchWithRetry strategy env target expirationTime k = asyncOperation target k := by
  rcases Nat.eq_zero_or_pos k with rfl | hpos
  · exact dispatchWithRetry_zero expirationTime
  · exact dispatchWithRetry_of_allows (by omega) hk (henv k hpos hk)

/-- The whole chain of a fresh context in an environment that allows every
retry: the target runs until its first call that is not a Retry, or until
the maximum, and the original callback then runs once. -/
theorem dispatch_of_fresh {ctx : AsyncContext} (hM : 1 ≤ strategy.maximumAllowedRetryCount)
    (hctx : ctx.retryCount = 0) (htarget : ∀ k, (target k).completes = true)
    (henv : ∀ k, 0 < k → k < strategy.maximumAllowedRetryCount →
      env.Allows strategy ctx.expirationTime k) :
    dispatch strategy env target ctx = some
      ((List.range (min strategy.maximumAllowedRetryCount
          (leadingRetries target strategy.maximumAllowedRetryCount + 1))).map Event.invoke ++
        [finalCallback strategy.maximumAllowedRetryCount target]) := by
  -- the invariant: every call so far was a Retry, and each ran once, in order
  have hprog : Loop.Progress (dispatchStep strategy env target ctx.expirationTime)
      (fun s => s.1 ≤ strategy.maximumAllowedRetryCount ∧
        (∀ j < s.1, (target j).isRetry = true) ∧ s.2 = (List.range s.1).map Event.invoke)
      (fun events => events = (List.range (min strategy.maximumAllowedRetryCount
          (leadingRetries target strategy.maximumAllowedRetryCount + 1))).map Event.invoke ++
        [finalCallback strategy.maximumAllowedRetryCount target])
      (fun s => strategy.maximumAllowedRetryCount + 1 - s.1) := by
    rintro ⟨k, events⟩ ⟨hle, hretry, hev⟩
    dsimp only at hle hretry hev ⊢
    subst hev
    rcases Nat.lt_or_ge k strategy.maximumAllowedRetryCount with hlt | hge
    · have hatt : dispatchWithRetry strategy env target ctx.expirationTime k =
          ([.invoke k], some (target k).result) :=
        (dispatchWithRetry_of_lt henv hlt).trans (asyncOperation_of_completes (htarget k))
      have hr : (dispatchWithRetry strategy env target ctx.expirationTime k).2 =
          some (target k).result := by rw [hatt]
      by_cases hrt : (target k).result.status = .retry
      · -- a Retry: the next copy runs with the count one up
        right
        refine ⟨_, dispatchStep_of_retry hr hrt, ⟨by omega, ?_, ?_⟩, by dsimp only; omega⟩
        · intro j hj
          rcases Nat.lt_succ_iff_lt_or_eq.mp hj with hj | rfl
          · exact hretry j hj
          · simp [TargetCall.isRetry, hrt]
        · rw [hatt, List.range_succ, List.map_append, List.map_singleton]
      · -- the first call that is not a Retry goes to the original callback
        left
        have hl : leadingRetries target strategy.maximumAllowedRetryCount = k :=
          Retry.leading_eq_of_not (p := fun j => (target j).isRetry) hretry
            (by simp [TargetCall.isRetry, hrt]) hlt
        refine ⟨_, dispatchStep_of_final hr hrt, ?_⟩
        rw [finalCallback, hl, if_pos hlt, Nat.min_eq_right (by omega), List.range_succ,
          List.map_append, hatt]
        rfl
    · -- the maximum: the retries are exhausted
      left
      have hk : k = strategy.maximumAllowedRetryCount := by omega
      subst hk
      have hatt : dispatchWithRetry strategy env target ctx.expirationTime
          strategy.maximumAllowedRetryCount =
            ([], some (failureExecutionResult scDispatcherExhaustedRetries)) :=
        dispatchWithRetry_of_exhausted (by omega) (Nat.le_refl _)
      have hl : leadingRetries target strategy.maximumAllowedRetryCount =
          strategy.maximumAllowedRetryCount :=
        Retry.leading_eq_self (p := fun j => (target j).isRetry) hretry
      refine ⟨_, dispatchStep_of_final (by rw [hatt]) (by simp [failureExecutionResult]), ?_⟩
      rw [finalCallback, hl, if_neg (Nat.lt_irrefl _), Nat.min_eq_left (by omega), hatt,
        List.append_nil]
  have hpot : strategy.maximumAllowedRetryCount + 1 - ctx.retryCount <
      strategy.maximumAllowedRetryCount + 2 := by omega
  obtain ⟨events, hrun, rfl⟩ := Loop.run_of_progress hprog
    (s := (ctx.retryCount, [])) ⟨by omega, by simp [hctx], by simp [hctx]⟩ hpot
  exact hrun

/-- For a fresh context, a target whose calls complete and an environment
that allows every retry, `Dispatch` calls the original callback exactly once,
runs the target once more than the leading Retries, up to the maximum, and
delivers the first result that is not a Retry, or EXHAUSTED at the maximum. -/
theorem dispatch_retries_until_final {ctx : AsyncContext}
    (hM : 1 ≤ strategy.maximumAllowedRetryCount) (hctx : ctx.retryCount = 0)
    (htarget : ∀ k, (target k).completes = true)
    (henv : ∀ k, 0 < k → k < strategy.maximumAllowedRetryCount →
      env.Allows strategy ctx.expirationTime k) :
    ∃ events, dispatch strategy env target ctx = some events ∧
      events.countP Event.isCallback = 1 ∧
      events.countP Event.isInvoke = min strategy.maximumAllowedRetryCount
        (1 + leadingRetries target strategy.maximumAllowedRetryCount) ∧
      events.getLast? = some (finalCallback strategy.maximumAllowedRetryCount target) := by
  have hfinal : (finalCallback strategy.maximumAllowedRetryCount target).isCallback = true := by
    unfold finalCallback
    split_ifs <;> rfl
  have hfinal' : (finalCallback strategy.maximumAllowedRetryCount target).isInvoke = false := by
    unfold finalCallback
    split_ifs <;> rfl
  refine ⟨_, dispatch_of_fresh hM hctx htarget henv, ?_, ?_, ?_⟩
  · simp [List.countP_append, hfinal, Function.comp_def]
  · simp [List.countP_append, hfinal', Function.comp_def]
    omega
  · simp

/-- The retries of the dispatcher's own test: five allowed, a target that
always finishes with a Retry. -/
theorem dispatch_retries_until_final_exhausting :
    ∃ events, dispatch ⟨.exponential, 10, 5⟩ ⟨fun _ => 0, fun _ => successExecutionResult⟩
        (fun _ => .finishes (retryExecutionResult 1)) ⟨0, 1000000000000⟩ = some events ∧
      events.countP Event.isCallback = 1 ∧
      events.countP Event.isInvoke =
        min 5 (1 + leadingRetries (fun _ => .finishes (retryExecutionResult 1)) 5) ∧
      events.getLast? = some (finalCallback 5 (fun _ => .finishes (retryExecutionResult 1))) := by
  have hback : ∀ k < 5,
      0 + (⟨.exponential, 10, 5⟩ : RetryStrategy).backOffDurationNs k < 1000000000000 := by
    decide
  exact dispatch_retries_until_final (by decide) rfl (fun _ => rfl)
    (fun k _ hk => ⟨rfl, hback k hk⟩)

end Proofs

end ControlPlane.Core
