import ControlPlane.Core.Common
import ControlPlane.Lib.Gather

/-!
# `Dispatcher::DispatchBatch` and `Dispatcher::Broadcast`: one callback for many

`DispatchBatch` (src/cc/roma/sandbox/dispatcher/src/dispatcher.h) dispatches
each request of a batch with its own callback, retrying every request but the
first until the dispatcher accepts it. `Broadcast` (dispatcher.cc) dispatches
a copy of a code object to every worker. Each callback stores its response in
its own slot and adds one to a shared `std::atomic<size_t>` counter; the one
that sees the counter at `size - 1` calls the batch's callback with all the
responses, or the broadcast's with the first failed response in worker
order, or worker 0's.

A dispatch that fails schedules nothing, so when either function returns
success every request has its callback scheduled once. In every interleaving
of the callbacks, the batch's callback is called once, after the last of
them, with the response of `batch[i]` at `i`; so is the broadcast's, with at
least one worker.

## Implementation notes

What `Dispatch` returns at each attempt is the parameter `dispatch`. The
callbacks' steps interleave as `Gather` has them; the responses are of any
type `α`, and `ok` is `StatusOr::ok`.
-/

namespace ControlPlane.Roma.Dispatcher

open Core Gather

variable {α : Type}

/-! ## The dispatch loops -/

section Loops

variable (dispatch : Nat → Nat → ExecutionResult) (batchSize : Nat)

/-- The loop of `DispatchBatch` from `index` on, at the `attempt`-th
`Dispatch` of `batch[index]`, which returns `dispatch index attempt`: what the
function returns, and the indices of the requests whose callbacks it
scheduled, in order; `none` once `fuel` attempts are spent and a request is
still refused. -/
def dispatchBatchLoop : Nat → Nat → Nat → Option (ExecutionResult × List Nat)
  | 0, _, _ => none
  | fuel + 1, index, attempt =>
      if index < batchSize then
        let result := dispatch index attempt
        if result ≠ successExecutionResult then
          -- a failure of the first request is returned at once; the others are retried
          if index = 0 then some (result, [])
          else dispatchBatchLoop fuel index (attempt + 1)
        else
          (dispatchBatchLoop fuel (index + 1) 0).map fun (result, scheduled) =>
            (result, index :: scheduled)
      else some (successExecutionResult, [])

/-- `DispatchBatch` with `fuel` attempts. -/
def dispatchBatch (fuel : Nat) : Option (ExecutionResult × List Nat) :=
  dispatchBatchLoop dispatch batchSize fuel 0 0

/-- A successful `DispatchBatch` schedules the callback of every request,
once each. -/
theorem dispatchBatchLoop_eq_success {fuel : Nat} :
    ∀ {index attempt : Nat} {scheduled : List Nat},
      dispatchBatchLoop dispatch batchSize fuel index attempt =
          some (successExecutionResult, scheduled) →
        scheduled = List.range' index (batchSize - index) := by
  induction fuel with
  | zero => intro index attempt scheduled h; cases h
  | succ fuel ih =>
      intro index attempt scheduled h
      unfold dispatchBatchLoop at h
      split at h
      · next hlt =>
        dsimp only at h
        split at h
        · next hfail =>
          split at h
          · -- the first request failed: its result is not a success
            simp only [Option.some.injEq, Prod.mk.injEq] at h
            exact absurd h.1 hfail
          · exact ih h
        · obtain ⟨⟨result, rest⟩, hrest, heq⟩ := Option.map_eq_some_iff.mp h
          cases heq
          rw [ih hrest, show batchSize - index = batchSize - (index + 1) + 1 by omega,
            List.range'_succ]
      · next hge =>
        cases h
        rw [show batchSize - index = 0 by omega, List.range'_zero]

variable {dispatch batchSize}

theorem dispatchBatch_eq_success {fuel : Nat} {scheduled : List Nat}
    (h : dispatchBatch dispatch batchSize fuel = some (successExecutionResult, scheduled)) :
    scheduled = List.range batchSize := by
  rw [dispatchBatchLoop_eq_success dispatch batchSize h, Nat.sub_zero, List.range_eq_range']

end Loops

section Broadcast

variable (dispatch : Nat → ExecutionResult)

/-- The loop of `Broadcast` over `count` workers from `workerIndex` on, where
`InternalDispatch` to worker `i` returns `dispatch i`: what the function
returns, and the workers whose callbacks it scheduled. -/
def broadcastLoop : Nat → Nat → ExecutionResult × List Nat
  | 0, _ => (successExecutionResult, [])
  | count + 1, workerIndex =>
      let dispatchResult := dispatch workerIndex
      if !dispatchResult.successful then (dispatchResult, [])
      else
        let (result, scheduled) := broadcastLoop count (workerIndex + 1)
        (result, workerIndex :: scheduled)

/-- `Broadcast` over `workerCount` workers. -/
def broadcast (workerCount : Nat) : ExecutionResult × List Nat :=
  broadcastLoop dispatch workerCount 0

/-- A successful `Broadcast` schedules the callback of every worker, once
each. -/
theorem broadcastLoop_eq_success {count : Nat} :
    ∀ {workerIndex : Nat} {scheduled : List Nat},
      broadcastLoop dispatch count workerIndex = (successExecutionResult, scheduled) →
        scheduled = List.range' workerIndex count := by
  induction count with
  | zero =>
      intro workerIndex scheduled h
      cases h
      rfl
  | succ count ih =>
      intro workerIndex scheduled h
      unfold broadcastLoop at h
      dsimp only at h
      split at h
      · next hfail =>
        simp only [Prod.mk.injEq] at h
        simp [h.1] at hfail
      · generalize hrest : broadcastLoop dispatch count (workerIndex + 1) = rest at h
        obtain ⟨result, scheduled'⟩ := rest
        simp only [Prod.mk.injEq] at h
        obtain ⟨rfl, rfl⟩ := h
        rw [ih hrest, List.range'_succ]

theorem broadcast_eq_success {dispatch : Nat → ExecutionResult} {workerCount : Nat}
    {scheduled : List Nat} (h : broadcast dispatch workerCount = (successExecutionResult, scheduled)) :
    scheduled = List.range workerCount := by
  rw [broadcastLoop_eq_success dispatch h, List.range_eq_range']

end Broadcast

/-! ## The callbacks -/

/-- What the last callback of a broadcast passes on: the first response, in
worker order, that is not ok, or else worker 0's. -/
def broadcastResponse (ok : α → Bool) (allResp : List (Option α)) : Option α :=
  match allResp.find? fun resp => resp.any fun r => !ok r with
  | some resp => resp
  | none => allResp.headD none

/-- With every worker's response in its slot, the broadcast passes on the
first failed one, or worker 0's. -/
theorem broadcastResponse_full (ok : α → Bool) (responses : Nat → α) {workerCount : Nat}
    (hw : 1 ≤ workerCount) :
    broadcastResponse ok (full workerCount responses) =
      some (match (List.range workerCount).find? fun i => !ok (responses i) with
        | some i => responses i
        | none => responses 0) := by
  unfold broadcastResponse full
  rw [List.find?_map]
  cases hfind : (List.range workerCount).find? fun i => !ok (responses i) with
  | some i =>
      have hfind' : (List.range workerCount).find?
          ((fun resp => resp.any fun r => !ok r) ∘ fun i => some (responses i)) = some i := by
        simpa [Function.comp_def] using hfind
      rw [hfind', Option.map_some]
  | none =>
      have hfind' : (List.range workerCount).find?
          ((fun resp => resp.any fun r => !ok r) ∘ fun i => some (responses i)) = none := by
        simpa [Function.comp_def] using hfind
      rw [hfind', Option.map_none]
      obtain ⟨k, rfl⟩ := Nat.exists_eq_add_of_le' hw
      simp [List.range_succ_eq_map]

/-- An interleaving of the callbacks `scheduled` names, each of them taking
its three steps. -/
def Interleaving (scheduled order : List Nat) : Prop :=
  order.Perm (scheduled.flatMap fun i => [i, i, i])

instance (scheduled order : List Nat) : Decidable (Interleaving scheduled order) :=
  inferInstanceAs (Decidable (order.Perm _))

/-- Three steps of each of the first `n` callbacks. -/
theorem count_flatMap_range (n i : Nat) :
    ((List.range n).flatMap fun j => [j, j, j]).count i = if i < n then 3 else 0 := by
  induction n with
  | zero => simp
  | succ n ih =>
      rw [List.range_succ, List.flatMap_append, List.count_append, ih]
      by_cases hi : i = n
      · subst hi
        simp
      · have hne : (n == i) = false := by simpa using Ne.symm hi
        simp only [List.flatMap_cons, List.flatMap_nil, List.append_nil, List.count_cons, hne,
          List.count_nil, Bool.false_eq_true, if_false, Nat.add_zero]
        by_cases hlt : i < n
        · rw [if_pos hlt, if_pos (by omega)]
        · rw [if_neg hlt, if_neg (by omega)]

/-- In an interleaving of the callbacks of the first `n` requests, each takes
its three steps. -/
theorem Interleaving.count_eq {n : Nat} {order : List Nat}
    (h : Interleaving (List.range n) order) :
    (∀ i ∈ order, i < n) ∧ ∀ i < n, order.count i = 3 := by
  have hcount : ∀ i, order.count i = if i < n then 3 else 0 := fun i => by
    rw [List.Perm.count_eq h i, count_flatMap_range]
  constructor
  · intro i hi
    have := List.count_pos_iff.mpr hi
    rw [hcount i] at this
    by_contra hge
    rw [if_neg hge] at this
    exact absurd this (Nat.lt_irrefl 0)
  · intro i hi
    rw [hcount i, if_pos hi]

/-- In every interleaving of the callbacks of `n ≥ 1` scheduled requests,
the continuation is called only after every callback has taken its number,
and once they have all run, exactly once, with every response in its slot. -/
theorem calls_once_of_interleaving {β : Type} {n : Nat} (hn : 1 ≤ n) (responses : Nat → α)
    (finish : List (Option α) → β) {order : List Nat} (horder : Interleaving (List.range n) order) :
    (∃ s, run n responses finish .init order = some s ∧ s.calls = [finish (full n responses)]) ∧
      ∀ k s, run n responses finish .init (order.take k) = some s → s.calls ≠ [] →
        ∀ i < n, (s.stages i).seen.isSome := by
  obtain ⟨hlt, hcount⟩ := horder.count_eq
  refine ⟨run_complete hn hlt hcount, ?_⟩
  intro k s hrun hcalls
  exact (inv_init.run hrun).all_seen_of_calls hcalls

/-- When `DispatchBatch` returns success, in every interleaving of the
callbacks of its `n ≥ 1` requests, `batch_callback` is called once, after
every callback has counted itself, with the response of `batch[i]` at `i`;
and when `Broadcast` to `w ≥ 1` workers returns success, in every
interleaving of its callbacks, `broadcast_callback` is called once, after
every callback has counted itself, with the first failed response in worker
order, or worker 0's. -/
theorem dispatchBatch_and_broadcast_call_back_once :
    (∀ (dispatch : Nat → Nat → ExecutionResult) (n fuel : Nat) (scheduled : List Nat)
        (responses : Nat → α) (order : List Nat),
      1 ≤ n → dispatchBatch dispatch n fuel = some (successExecutionResult, scheduled) →
      Interleaving scheduled order →
        (∃ s, run n responses id .init order = some s ∧ s.calls = [full n responses]) ∧
        ∀ k s, run n responses id .init (order.take k) = some s → s.calls ≠ [] →
          ∀ i < n, (s.stages i).seen.isSome) ∧
    (∀ (ok : α → Bool) (dispatch : Nat → ExecutionResult) (w : Nat) (scheduled : List Nat)
        (responses : Nat → α) (order : List Nat),
      1 ≤ w → broadcast dispatch w = (successExecutionResult, scheduled) →
      Interleaving scheduled order →
        (∃ s, run w responses (broadcastResponse ok) .init order = some s ∧
          s.calls = [some (match (List.range w).find? fun i => !ok (responses i) with
            | some i => responses i
            | none => responses 0)]) ∧
        ∀ k s, run w responses (broadcastResponse ok) .init (order.take k) = some s →
          s.calls ≠ [] → ∀ i < w, (s.stages i).seen.isSome) := by
  constructor
  · intro dispatch n fuel scheduled responses order hn hok horder
    -- a successful batch scheduled the callback of every request
    rw [dispatchBatch_eq_success hok] at horder
    exact calls_once_of_interleaving hn responses id horder
  · intro ok dispatch w scheduled responses order hw hok horder
    rw [broadcast_eq_success hok] at horder
    obtain ⟨⟨s, hrun, hcalls⟩, hafter⟩ :=
      calls_once_of_interleaving hw responses (broadcastResponse ok) horder
    exact ⟨⟨s, hrun, by rw [hcalls, broadcastResponse_full ok responses hw]⟩, hafter⟩

theorem dispatchBatch_and_broadcast_call_back_once_two_requests :
    ((∃ s, run 2 (fun i => i) id .init [1, 0, 1, 1, 0, 0] = some s ∧
        s.calls = [full 2 fun i => i]) ∧
      ∀ k s, run 2 (fun i => i) id .init ([1, 0, 1, 1, 0, 0].take k) = some s → s.calls ≠ [] →
        ∀ i < 2, (s.stages i).seen.isSome) ∧
    ((∃ s, run 2 (fun i => i) (broadcastResponse fun r => r != 0) .init [0, 1, 1, 0, 0, 1] =
          some s ∧
        s.calls = [some (match (List.range 2).find? fun i => !(i != 0) with
          | some i => i
          | none => 0)]) ∧
      ∀ k s, run 2 (fun i => i) (broadcastResponse fun r => r != 0) .init
          ([0, 1, 1, 0, 0, 1].take k) = some s → s.calls ≠ [] →
        ∀ i < 2, (s.stages i).seen.isSome) :=
  ⟨dispatchBatch_and_broadcast_call_back_once.1 (fun _ _ => successExecutionResult) 2 3 [0, 1]
      (fun i => i) [1, 0, 1, 1, 0, 0] (by decide) rfl (by decide),
    dispatchBatch_and_broadcast_call_back_once.2 (fun r => r != 0) (fun _ => successExecutionResult)
      2 [0, 1] (fun i => i) [0, 1, 1, 0, 0, 1] (by decide) rfl (by decide)⟩

end ControlPlane.Roma.Dispatcher
