import ControlPlane.Core.Common
import ControlPlane.Core.LruCache

/-!
# Roma's code caches: the dispatcher and its workers

`RomaService` gives the `Dispatcher` a `code_object_cache_` and every worker
a `compilation_contexts_`, all `LruCache`s of `code_version_cache_size`
entries (src/cc/roma/sandbox). A load is broadcast: the dispatcher sets the
code object once per worker, and each worker compiles the code and caches
the context. An execution goes to one worker: the dispatcher accepts it when
its cache holds the version and reads the object twice to pick the request
type; the worker, which requires a preload, fails with
`SC_ROMA_WORKER_MISSING_CONTEXT_WHEN_EXECUTING` when its own cache holds no
context for the version.

Each cache keeps its own recency order. The dispatcher's sees every request;
a worker's sees only the requests routed to it. With one worker the orders
move together and the two caches hold the same versions.

## Implementation notes

A request runs to its end before the next one starts, and the `Set`s of a
broadcast come before its requests run. A code object is its JavaScript
source and a compilation context the source it was compiled from: the
contents of the caches play no part. A crashed worker restarts empty and is
reloaded from `GetAll` of the dispatcher's cache; that map's iteration order
is unspecified, so the crash names the order.
-/

namespace ControlPlane.Roma

open ControlPlane ControlPlane.Core

def scRomaWorker : Nat := 0x0900

def scRomaWorkerMissingContextWhenExecuting : StatusCode := makeErrorCode scRomaWorker 0x0002

def scRomaWorkerPool : Nat := 0x0CF0

def scRomaWorkerPoolWorkerIndexOutOfBounds : StatusCode := makeErrorCode scRomaWorkerPool 0x0001

def scRomaWorkerApi : Nat := 0x0B00

def scRomaWorkerApiWorkerCrashed : StatusCode := makeErrorCode scRomaWorkerApi 0x000A

/-- `kRequestActionLoad` and `kRequestActionExecute`. -/
inductive RequestAction where
  | load
  | execute
  deriving DecidableEq, Repr

/-- The dispatcher's cache of code objects and each worker's cache of
compilation contexts, both by version. -/
structure CodeCaches where
  codeObjectCache : LruCache Nat String
  workers : List (LruCache Nat String)

/-- How a request ends. -/
inductive Outcome where
  | ok
  /-- "Could not find code version in cache." -/
  | codeVersionNotFound
  | workerFailed (result : ExecutionResult)
  deriving DecidableEq, Repr

/-- The dispatcher's reads in the executor: `Contains`, then the two `Get`s
that pick the request type. `LruCache.get` answers for exactly the keys
`Contains` reports. -/
def readCodeObject (capacity version : Nat) (cache : LruCache Nat String) :
    Option (String × LruCache Nat String) :=
  match cache.get capacity version with
  | some (code, cache₁) => (cache₁.get capacity version).map fun r => (code, r.2)
  | none => none

/-- `Worker::RunCode` with `require_preload_` on the worker's
`compilation_contexts_`: a load compiles the code and caches the context; an
execution needs a cached context (`Contains`, then `Get`). -/
def runCode (capacity : Nat) (action : RequestAction) (version : Nat) (code : String)
    (contexts : LruCache Nat String) : Except ExecutionResult (LruCache Nat String) :=
  match action with
  | .load => .ok (contexts.set capacity version code)
  | .execute =>
      match contexts.get capacity version with
      | some (_, contexts') => .ok contexts'
      | none => .error (failureExecutionResult scRomaWorkerMissingContextWhenExecuting)

/-- The request `InternalDispatch` schedules, run on worker `index`. -/
def dispatchTo (capacity : Nat) (action : RequestAction) (version index : Nat)
    (st : CodeCaches) : CodeCaches × Outcome :=
  match st.workers[index]? with
  | none => (st, .workerFailed (failureExecutionResult scRomaWorkerPoolWorkerIndexOutOfBounds))
  | some contexts =>
      match readCodeObject capacity version st.codeObjectCache with
      | none => (st, .codeVersionNotFound)
      | some (code, cache) =>
          match runCode capacity action version code contexts with
          | .ok contexts' => (⟨cache, st.workers.set index contexts'⟩, .ok)
          | .error r => (⟨cache, st.workers⟩, .workerFailed r)

/-- `Broadcast` of a load: one `InternalDispatch` per worker, each setting
the code object in the dispatcher's cache, then the loads running in
order. -/
def broadcast (capacity version : Nat) (code : String) (st : CodeCaches) :
    CodeCaches × List Outcome :=
  let indices := List.range st.workers.length
  let st₁ := indices.foldl (fun st _ =>
    ⟨st.codeObjectCache.set capacity version code, st.workers⟩) st
  indices.foldl (fun acc i =>
    let r := dispatchTo capacity .load version i acc.1
    (r.1, acc.2 ++ [r.2])) (st₁, [])

/-- `ReloadCachedCodeObjects` into a restarted worker: every cached code
object, in the iteration order `order` of the map `GetAll` returns, loaded
again. -/
def reloadCachedCodeObjects (capacity : Nat) (order : List Nat) (st : CodeCaches) :
    LruCache Nat String :=
  let all := st.codeObjectCache.getAll
  order.foldl (fun contexts version =>
    match all.lookup version with
    | some code => contexts.set capacity version code
    | none => contexts) LruCache.empty

/-- What happens to the system. -/
inductive RomaOp where
  | load (version : Nat) (code : String)
  | execute (version index : Nat)
  /-- An execution during which worker `index` crashes, with the order in
  which the reload visits the cached versions. -/
  | executeCrashing (version index : Nat) (order : List Nat)

def RomaOp.crashes : RomaOp → Bool
  | .executeCrashing .. => true
  | _ => false

/-- One operation: a broadcast load, an execution, or an execution on a
worker that crashes, restarts empty and is reloaded. -/
def step (capacity : Nat) (st : CodeCaches) : RomaOp → CodeCaches × List Outcome
  | .load version code => broadcast capacity version code st
  | .execute version index =>
      let r := dispatchTo capacity .execute version index st
      (r.1, [r.2])
  | .executeCrashing version index order =>
      match readCodeObject capacity version st.codeObjectCache with
      | none => (st, [.codeVersionNotFound])
      | some (_, cache) =>
          let st₁ : CodeCaches := ⟨cache, st.workers⟩
          (⟨cache, st.workers.set index (reloadCachedCodeObjects capacity order st₁)⟩,
            [.workerFailed (retryExecutionResult scRomaWorkerApiWorkerCrashed)])

/-- The operations one after another, with the outcomes of all requests. -/
def run (capacity : Nat) (st : CodeCaches) : List RomaOp → CodeCaches × List Outcome
  | [] => (st, [])
  | op :: ops =>
      let r := step capacity st op
      let rest := run capacity r.1 ops
      (rest.1, r.2 ++ rest.2)

/-- A new service with `n` workers. -/
def start (n : Nat) : CodeCaches := ⟨LruCache.empty, List.replicate n LruCache.empty⟩

/-! ## One worker keeps in step with the dispatcher -/

/-- The worker's cache holds the dispatcher's versions, in the dispatcher's
order, and both keep the cache invariant. -/
structure InSync (capacity : Nat) (d w : LruCache Nat String) : Prop where
  dispatcher : LruCache.Inv capacity d
  worker : LruCache.Inv capacity w
  keys_eq : Lru.keys (LruCache.toModel w) = Lru.keys (LruCache.toModel d)

/-- A request that does not fail for want of a compilation context. -/
def Outcome.Accepted (o : Outcome) : Prop :=
  o ≠ .workerFailed (failureExecutionResult scRomaWorkerMissingContextWhenExecuting)

instance : DecidablePred Outcome.Accepted := fun _ => inferInstanceAs (Decidable (_ ≠ _))

section Sync

variable {capacity : Nat}

theorem readCodeObject_of_not_mem {version : Nat} {d : LruCache Nat String}
    (hv : version ∉ d.data) : readCodeObject capacity version d = none := by
  simp [readCodeObject, LruCache.get_of_not_mem hv]

/-- A `Get` of a held key is its `Set` to the value read, in the model. -/
theorem get_of_mem (hc : 0 < capacity) {version : Nat} {d : LruCache Nat String}
    (h : LruCache.Inv capacity d) (hv : version ∈ d.data) :
    ∃ code d', d.get capacity version = some (code, d') ∧ LruCache.Inv capacity d' ∧
      (LruCache.toModel d).lookup version = some code ∧
      LruCache.toModel d' = Lru.set capacity version code (LruCache.toModel d) := by
  obtain ⟨code, d', hg, hm, hinv⟩ := h.get hc hv
  exact ⟨code, d', hg, hinv, Lru.get_eq_some hm capacity⟩

/-- The dispatcher's two reads of a held version move it to the front. -/
theorem readCodeObject_of_mem (hc : 0 < capacity) {version : Nat} {d : LruCache Nat String}
    (h : LruCache.Inv capacity d) (hv : version ∈ d.data) :
    ∃ code d', readCodeObject capacity version d = some (code, d') ∧
      LruCache.Inv capacity d' ∧
      LruCache.toModel d' = Lru.set capacity version code (LruCache.toModel d) := by
  obtain ⟨code, d₁, hg₁, hinv₁, -, hm₁⟩ := get_of_mem hc h hv
  have hv₁ : version ∈ d₁.data := by
    rw [← LruCache.mem_keys_toModel hinv₁, hm₁, Lru.set_eq_cons, Lru.keys_cons]
    exact List.mem_cons_self
  obtain ⟨code₂, d₂, hg₂, hinv₂, hl₂, hm₂⟩ := get_of_mem hc hinv₁ hv₁
  -- the second read finds the value the first one put in front
  have hcode : code₂ = code := by
    rw [hm₁, Lru.lookup_set_self, Option.some.injEq] at hl₂
    exact hl₂.symm
  subst hcode
  refine ⟨code₂, d₂, ?_, hinv₂, ?_⟩
  · simp only [readCodeObject, hg₁, hg₂, Option.map_some]
  · rw [hm₂, hm₁, Lru.set_set]

/-- A load broadcast to the one worker sets the version in both caches. -/
theorem broadcast_inSync (hc : 0 < capacity) {d w : LruCache Nat String}
    (h : InSync capacity d w) (version : Nat) (code : String) :
    ∃ d' w', broadcast capacity version code ⟨d, [w]⟩ = (⟨d', [w']⟩, [.ok]) ∧
      InSync capacity d' w' := by
  have hset := h.dispatcher.set hc version code
  have hv : version ∈ (d.set capacity version code).data := by
    rw [← LruCache.mem_keys_toModel hset.1, hset.2, Lru.set_eq_cons, Lru.keys_cons]
    exact List.mem_cons_self
  obtain ⟨code', d', hread, hinv', hm'⟩ := readCodeObject_of_mem hc hset.1 hv
  have hwset := h.worker.set hc version code'
  refine ⟨d', w.set capacity version code', ?_, ⟨hinv', hwset.1, ?_⟩⟩
  · simp [broadcast, dispatchTo, hread, runCode]
  · rw [hwset.2, hm', hset.2, Lru.set_set]
    exact Lru.keys_set_congr h.keys_eq code' code'

/-- An execution on the one worker: rejected by the dispatcher, or run by a
worker that holds the version. -/
theorem execute_inSync (hc : 0 < capacity) {d w : LruCache Nat String}
    (h : InSync capacity d w) (version : Nat) :
    ∃ d' w' o, dispatchTo capacity .execute version 0 ⟨d, [w]⟩ = (⟨d', [w']⟩, o) ∧
      InSync capacity d' w' ∧ o.Accepted := by
  by_cases hv : version ∈ d.data
  · obtain ⟨code, d', hread, hinv', hm'⟩ := readCodeObject_of_mem hc h.dispatcher hv
    -- the worker holds every version the dispatcher holds
    have hw : version ∈ w.data := by
      rw [← LruCache.mem_keys_toModel h.worker, h.keys_eq, LruCache.mem_keys_toModel h.dispatcher]
      exact hv
    obtain ⟨ctx, w', hg, hwinv, -, hwm⟩ := get_of_mem hc h.worker hw
    refine ⟨d', w', .ok, ?_, ⟨hinv', hwinv, ?_⟩, by decide⟩
    · simp [dispatchTo, hread, runCode, hg]
    · rw [hwm, hm']
      exact Lru.keys_set_congr h.keys_eq ctx code
  · refine ⟨d, w, .codeVersionNotFound, ?_, h, by decide⟩
    simp [dispatchTo, readCodeObject_of_not_mem hv]

theorem step_inSync (hc : 0 < capacity) {d w : LruCache Nat String}
    (h : InSync capacity d w) {op : RomaOp} (hop : op.crashes = false) :
    ∃ d' w' outs, step capacity ⟨d, [w]⟩ op = (⟨d', [w']⟩, outs) ∧ InSync capacity d' w' ∧
      ∀ o ∈ outs, o.Accepted := by
  cases op with
  | load version code =>
      obtain ⟨d', w', hb, hs⟩ := broadcast_inSync hc h version code
      refine ⟨d', w', [.ok], hb, hs, ?_⟩
      intro o ho
      rw [List.mem_singleton.mp ho]
      decide
  | execute version index =>
      cases index with
      | zero =>
          obtain ⟨d', w', o, he, hs, ho⟩ := execute_inSync hc h version
          refine ⟨d', w', [o], ?_, hs, ?_⟩
          · simp only [step, he]
          · intro o' ho'
            rw [List.mem_singleton.mp ho']
            exact ho
      | succ index =>
          -- no worker there: `GetWorker` fails and nothing changes
          refine ⟨d, w,
            [.workerFailed (failureExecutionResult scRomaWorkerPoolWorkerIndexOutOfBounds)],
            rfl, h, ?_⟩
          intro o ho
          rw [List.mem_singleton.mp ho]
          decide
  | executeCrashing version index order => simp [RomaOp.crashes] at hop

theorem InSync.empty (capacity : Nat) : InSync capacity LruCache.empty LruCache.empty :=
  ⟨LruCache.Inv.empty capacity, LruCache.Inv.empty capacity, rfl⟩

/-- With one worker and no crash, the two caches stay in step over any run,
and no request fails for want of a compilation context. -/
theorem run_inSync (hc : 0 < capacity) (ops : List RomaOp)
    (hops : ∀ op ∈ ops, op.crashes = false) {d w : LruCache Nat String} (h : InSync capacity d w) :
    ∃ d' w', (run capacity ⟨d, [w]⟩ ops).1 = ⟨d', [w']⟩ ∧ InSync capacity d' w' ∧
      ∀ o ∈ (run capacity ⟨d, [w]⟩ ops).2, o.Accepted := by
  -- induction on the operations, the invariant `InSync` carried from step to step
  induction ops generalizing d w with
  | nil => exact ⟨d, w, rfl, h, by simp [run]⟩
  | cons op ops ih =>
      obtain ⟨d₁, w₁, outs, hstep, hs₁, hacc⟩ :=
        step_inSync hc h (hops op List.mem_cons_self)
      obtain ⟨d', w', hrun, hs', hacc'⟩ :=
        ih (fun op' hm => hops op' (List.mem_cons_of_mem _ hm)) hs₁
      refine ⟨d', w', ?_, hs', ?_⟩
      · simp only [run, hstep, hrun]
      · intro o ho
        simp only [run, hstep, List.mem_append] at ho
        rcases ho with ho | ho
        · exact hacc o ho
        · exact hacc' o ho

/-- A service with one worker never fails an execution for want of a
compilation context, whatever loads and executions it sees. -/
theorem start_one_never_misses_context (hc : 0 < capacity) (ops : List RomaOp)
    (hops : ∀ op ∈ ops, op.crashes = false) :
    ∀ o ∈ (run capacity (start 1) ops).2, o.Accepted := by
  obtain ⟨_, _, _, _, hacc⟩ := run_inSync hc ops hops (InSync.empty capacity)
  exact hacc

end Sync

/-! ## Two workers fall out of step -/

/-- Load versions 1 and 2, execute 1 on worker 0, load 3: the dispatcher and
worker 0 have used 1 since 2, worker 1 has not. -/
def evictingSession : List RomaOp := [.load 1 "a", .load 2 "b", .execute 1 0, .load 3 "c"]

/-- With two workers and two cached versions, the dispatcher still holds
version 1 after the session, so it accepts an execution of 1, which worker 1,
having evicted it, fails. -/
theorem dispatcher_accepts_what_worker_evicted :
    (run 2 (start 2) evictingSession).1.codeObjectCache.contains 1 = true ∧
      (run 2 (start 2) (evictingSession ++ [.execute 1 1])).2.getLast? =
        some (.workerFailed (failureExecutionResult scRomaWorkerMissingContextWhenExecuting)) := by
  decide

end ControlPlane.Roma
