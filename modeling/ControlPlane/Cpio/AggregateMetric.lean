import Mathlib
import ControlPlane.Core.Common

/-!
# `AggregateMetric`: counters flushed into metric pushes

`AggregateMetric` (src/cc/public/cpio/utils/metric_aggregation) keeps a
default counter and one counter per event code, all `size_t` atomics.
`IncrementBy` adds to one of them while the metric accepts increments, and
each round of `RunMetricPush` exchanges every counter with 0 and hands what it
took, when it is positive, to `MetricPushHandler`, which takes an `int64_t`
and puts the metric with the value `to_string(value)`.

Over any run, for each counter, what was flushed plus what the counter holds
is at most what was accepted and equal to it modulo 2^64 (`Flow`,
`flow_exec`). Equality holds while the accepted total stays below 2^64, and
the pushed texts are the flushed amounts while it stays below 2^63
(`exact_of_lt`); past that the additions wrap and the conversion to
`int64_t` turns a flushed amount into a negative value.

## Implementation notes

The keys of `event_counters_` are fixed by the constructor, so the map is
the list of its event codes and a function for the values; `RunMetricPush`
visits the codes in the list's order, which stands for the map's. The calls
of a run are sequential. The scheduled push task, `PutMetrics` and the
logging only report failures and are left out; `ScheduleFor`'s answer is a
parameter of `Run`.
-/

namespace ControlPlane.Cpio

open Core

def scCustomizedMetric : Nat := 0x020D

def scCustomizedMetricPushCannotSchedule : StatusCode := makeErrorCode scCustomizedMetric 0x0001

def scCustomizedMetricEventCodeNotExist : StatusCode := makeErrorCode scCustomizedMetric 0x0002

def scCustomizedMetricNotRunning : StatusCode := makeErrorCode scCustomizedMetric 0x0003

def scCustomizedMetricAlreadyRunning : StatusCode := makeErrorCode scCustomizedMetric 0x0004

def scCustomizedMetricCannotIncrementWhenNotRunning : StatusCode :=
  makeErrorCode scCustomizedMetric 0x0005

/-- The state of an `AggregateMetric`: the event codes, which an
`unordered_map` keeps distinct, their counters, the default counter and the
two flags. -/
structure AggregateMetric where
  eventCodes : List String
  eventCodes_nodup : eventCodes.Nodup
  eventCounters : String → UInt64
  counter : UInt64
  isRunning : Bool
  canAcceptIncomingIncrements : Bool

/-- A call of `MetricPushHandler`: the metric, the default one (`none`) or the
one of an event code, and the value it is given. -/
structure PushedMetric where
  metricInfo : Option String
  value : Int64
  deriving DecidableEq, Repr

namespace AggregateMetric

/-- The constructor with an event code list: every code gets a counter at 0. -/
def new (eventCodeLabelsList : List String) : AggregateMetric where
  eventCodes := eventCodeLabelsList.dedup
  eventCodes_nodup := List.nodup_dedup _
  eventCounters := fun _ => 0
  counter := 0
  isRunning := false
  canAcceptIncomingIncrements := false

/-- `ScheduleMetricPush`, with the answer of `ScheduleFor`. -/
def scheduleMetricPush (m : AggregateMetric) (scheduled : Bool) : ExecutionResult :=
  if !m.isRunning then failureExecutionResult scCustomizedMetricNotRunning
  else if scheduled then successExecutionResult
  else failureExecutionResult scCustomizedMetricPushCannotSchedule

/-- `Run`: the flags are set before the first push is scheduled, and stay set
when it cannot be. -/
def run (m : AggregateMetric) (scheduled : Bool) : ExecutionResult × AggregateMetric :=
  if m.isRunning then (failureExecutionResult scCustomizedMetricAlreadyRunning, m)
  else
    let m := { m with isRunning := true, canAcceptIncomingIncrements := true }
    (m.scheduleMetricPush scheduled, m)

/-- `Stop`; `none` when it waits for counters that no later call of a
sequential run flushes. -/
def stop (m : AggregateMetric) : Option (ExecutionResult × AggregateMetric) :=
  if !m.isRunning then some (failureExecutionResult scCustomizedMetricNotRunning, m)
  else
    let m := { m with canAcceptIncomingIncrements := false }
    if 0 < m.counter ∨ m.eventCodes.any (fun eventCode => 0 < m.eventCounters eventCode) then none
    else some (successExecutionResult, { m with isRunning := false })

/-- `IncrementBy`; the empty event code is the default counter. -/
def incrementBy (m : AggregateMetric) (value : UInt64) (eventCode : String) :
    ExecutionResult × AggregateMetric :=
  if !m.canAcceptIncomingIncrements then
    (failureExecutionResult scCustomizedMetricCannotIncrementWhenNotRunning, m)
  else if eventCode.isEmpty then (successExecutionResult, { m with counter := m.counter + value })
  else if eventCode ∉ m.eventCodes then
    (failureExecutionResult scCustomizedMetricEventCodeNotExist, m)
  else
    (successExecutionResult, { m with
      eventCounters := Function.update m.eventCounters eventCode (m.eventCounters eventCode + value) })

def increment (m : AggregateMetric) (eventCode : String) : ExecutionResult × AggregateMetric :=
  m.incrementBy 1 eventCode

end AggregateMetric

/-- The metric value `MetricPushHandler` puts: `to_string` of the `int64_t`. -/
def PushedMetric.metricValue (p : PushedMetric) : String := toString p.value.toInt

/-- The loop of `RunMetricPush` over the event counters: each is exchanged
with 0, and what it held is pushed when it is positive. -/
def pushEventCounters : List String → (String → UInt64) → (String → UInt64) × List PushedMetric
  | [], eventCounters => (eventCounters, [])
  | eventCode :: rest, eventCounters =>
    let value := eventCounters eventCode
    let (eventCounters, pushes) := pushEventCounters rest (Function.update eventCounters eventCode 0)
    (eventCounters, if 0 < value then ⟨some eventCode, value.toInt64⟩ :: pushes else pushes)

namespace AggregateMetric

/-- `RunMetricPush`: the default counter, then the event counters. -/
def runMetricPush (m : AggregateMetric) : AggregateMetric × List PushedMetric :=
  let value := m.counter
  let pushes := if 0 < value then [⟨none, value.toInt64⟩] else []
  let (eventCounters, eventPushes) := pushEventCounters m.eventCodes m.eventCounters
  ({ m with counter := 0, eventCounters }, pushes ++ eventPushes)

/-- The counter an increment with this event code goes to. -/
def counterOf (eventCode : String) : Option String :=
  if eventCode.isEmpty then none else some eventCode

/-- What a counter holds. -/
def counterValue (m : AggregateMetric) : Option String → UInt64
  | none => m.counter
  | some eventCode => m.eventCounters eventCode

end AggregateMetric

/-! ## Runs -/

inductive Call
  | run (scheduled : Bool)
  | stop
  | incrementBy (value : UInt64) (eventCode : String)
  | runMetricPush
  deriving DecidableEq, Repr

/-- What a run shows of its calls: the increments that returned success and
the calls of `MetricPushHandler`. -/
inductive Event
  | accepted (counter : Option String) (value : UInt64)
  | pushed (metric : PushedMetric)
  deriving DecidableEq, Repr

open AggregateMetric

def step (m : AggregateMetric) : Call → Option (AggregateMetric × List Event)
  | .run scheduled => some ((m.run scheduled).2, [])
  | .stop => (m.stop).map fun r => (r.2, [])
  | .incrementBy value eventCode =>
    let (result, m') := m.incrementBy value eventCode
    some (m', if result = successExecutionResult then [.accepted (counterOf eventCode) value] else [])
  | .runMetricPush =>
    let (m', pushes) := m.runMetricPush
    some (m', pushes.map .pushed)

def exec (m : AggregateMetric) : List Call → Option (AggregateMetric × List Event)
  | [] => some (m, [])
  | call :: calls => do
    let (m₁, events) ← step m call
    let (m₂, rest) ← exec m₁ calls
    pure (m₂, events ++ rest)

/-! ## Accounting per counter -/

section Accounting

variable (k : Option String)

/-- What an event adds to the accepted total of the counter `k`. -/
def Event.acceptedValue : Event → Nat
  | .accepted counter value => if counter = k then value.toNat else 0
  | .pushed _ => 0

/-- What an event flushed from the counter `k`, as the `size_t` it was. -/
def Event.flushedValue : Event → Nat
  | .accepted _ _ => 0
  | .pushed p => if p.metricInfo = k then p.value.toUInt64.toNat else 0

/-- What an event passed to `MetricPushHandler` for the counter `k`. -/
def Event.pushedValue : Event → Int
  | .accepted _ _ => 0
  | .pushed p => if p.metricInfo = k then p.value.toInt else 0

def acceptedTotal (events : List Event) : Nat := (events.map (Event.acceptedValue k)).sum

def flushedTotal (events : List Event) : Nat := (events.map (Event.flushedValue k)).sum

def pushedTotal (events : List Event) : Int := (events.map (Event.pushedValue k)).sum

/-- Over a stretch of a run, for the counter `k`: what was flushed plus what
the counter holds at the end is at most what it held at the start plus what
was accepted, and equal to that modulo 2^64. -/
def Flow (m m' : AggregateMetric) (events : List Event) : Prop :=
  flushedTotal k events + (m'.counterValue k).toNat ≤
      (m.counterValue k).toNat + acceptedTotal k events ∧
    (flushedTotal k events + (m'.counterValue k).toNat) % 2 ^ 64 =
      ((m.counterValue k).toNat + acceptedTotal k events) % 2 ^ 64

@[simp] theorem acceptedTotal_nil : acceptedTotal k [] = 0 := rfl

@[simp] theorem flushedTotal_nil : flushedTotal k [] = 0 := rfl

@[simp] theorem acceptedTotal_append (e₁ e₂ : List Event) :
    acceptedTotal k (e₁ ++ e₂) = acceptedTotal k e₁ + acceptedTotal k e₂ := by
  simp [acceptedTotal]

@[simp] theorem flushedTotal_append (e₁ e₂ : List Event) :
    flushedTotal k (e₁ ++ e₂) = flushedTotal k e₁ + flushedTotal k e₂ := by
  simp [flushedTotal]

theorem flow_refl (m : AggregateMetric) : Flow k m m [] := by
  simp [Flow]

theorem Flow.trans {m₁ m₂ m₃ : AggregateMetric} {e₁ e₂ : List Event}
    (h₁ : Flow k m₁ m₂ e₁) (h₂ : Flow k m₂ m₃ e₂) : Flow k m₁ m₃ (e₁ ++ e₂) := by
  obtain ⟨hle₁, hmod₁⟩ := h₁
  obtain ⟨hle₂, hmod₂⟩ := h₂
  simp only [Flow, acceptedTotal_append, flushedTotal_append]
  constructor
  · omega
  · omega

theorem flow_of_counterValue {m m' : AggregateMetric} (h : m'.counterValue k = m.counterValue k) :
    Flow k m m' [] := by
  simp [Flow, h]

/-! ## What each call does to the counters -/

theorem counterValue_run (m : AggregateMetric) (scheduled : Bool) :
    (m.run scheduled).2.counterValue k = m.counterValue k := by
  unfold AggregateMetric.run
  split
  · rfl
  · cases k <;> rfl

theorem counterValue_stop {m m' : AggregateMetric} {result : ExecutionResult}
    (h : m.stop = some (result, m')) : m'.counterValue k = m.counterValue k := by
  unfold AggregateMetric.stop at h
  split at h
  · simp only [Option.some.injEq, Prod.mk.injEq] at h
    rw [h.2]
  · dsimp only at h
    split at h
    · cases h
    · simp only [Option.some.injEq, Prod.mk.injEq] at h
      rw [← h.2]
      cases k <;> rfl

/-- An increment either fails and leaves the metric, or succeeds and adds
its value to the counter of its event code. -/
theorem incrementBy_cases (m : AggregateMetric) (value : UInt64) (eventCode : String) :
    ((m.incrementBy value eventCode).1 ≠ successExecutionResult ∧
        (m.incrementBy value eventCode).2 = m) ∨
      ((m.incrementBy value eventCode).1 = successExecutionResult ∧
        ∀ k, (m.incrementBy value eventCode).2.counterValue k =
          if k = counterOf eventCode then m.counterValue k + value else m.counterValue k) := by
  unfold AggregateMetric.incrementBy
  split
  · exact .inl ⟨failureExecutionResult_ne_success _, rfl⟩
  split
  · next hempty =>
    refine .inr ⟨rfl, ?_⟩
    intro k
    cases k <;> simp [counterOf, hempty, counterValue]
  split
  · exact .inl ⟨failureExecutionResult_ne_success _, rfl⟩
  · next hempty _ =>
    refine .inr ⟨rfl, ?_⟩
    intro k
    cases k with
    | none => simp [counterOf, hempty, counterValue]
    | some c =>
      by_cases hc : c = eventCode
      · subst hc
        simp [counterOf, hempty, counterValue]
      · simp [counterOf, hempty, counterValue, hc]

theorem flushedTotal_pushed_cons (p : PushedMetric) (pushes : List PushedMetric) :
    flushedTotal k ((p :: pushes).map .pushed) =
      (if p.metricInfo = k then p.value.toUInt64.toNat else 0) + flushedTotal k (pushes.map .pushed) := by
  simp [flushedTotal, Event.flushedValue]

/-- Each round of the event loop moves what a counter held into its pushes. -/
theorem pushEventCounters_flushed (codes : List String) (counters : String → UInt64) (c : String) :
    flushedTotal (some c) ((pushEventCounters codes counters).2.map .pushed) +
      ((pushEventCounters codes counters).1 c).toNat = (counters c).toNat := by
  induction codes generalizing counters with
  | nil => simp [pushEventCounters]
  | cons d rest ih =>
    have hrest := ih (Function.update counters d 0)
    simp only [pushEventCounters]
    split
    · next hpos =>
      rw [flushedTotal_pushed_cons]
      by_cases hcd : c = d
      · subst hcd
        simp only [Function.update_self, UInt64.toNat_zero] at hrest
        simp only [UInt64.toUInt64_toInt64, if_true]
        omega
      · simp only [Function.update_of_ne hcd] at hrest
        simp only [Option.some.injEq, Ne.symm hcd, if_false]
        omega
    · next hzero =>
      by_cases hcd : c = d
      · subst hcd
        simp only [Function.update_self, UInt64.toNat_zero] at hrest
        have : counters c = 0 := by
          simpa using hzero
        rw [this]
        simpa using hrest
      · simpa [Function.update_of_ne hcd] using hrest

/-- The event loop pushes only event metrics, and only positive amounts. -/
theorem pushEventCounters_pushes (codes : List String) (counters : String → UInt64) :
    ∀ p ∈ (pushEventCounters codes counters).2, p.metricInfo ≠ none ∧ 0 < p.value.toUInt64 := by
  induction codes generalizing counters with
  | nil => simp [pushEventCounters]
  | cons d rest ih =>
    simp only [pushEventCounters]
    split
    · next hpos =>
      intro p hp
      rcases List.mem_cons.mp hp with rfl | hp
      · exact ⟨Option.some_ne_none d, by simpa using hpos⟩
      · exact ih _ p hp
    · exact ih _

theorem flushedTotal_none_pushEventCounters (codes : List String) (counters : String → UInt64) :
    flushedTotal none ((pushEventCounters codes counters).2.map .pushed) = 0 := by
  have hpushes := pushEventCounters_pushes codes counters
  rw [flushedTotal, List.map_map, List.sum_eq_zero_iff_forall_eq_nat]
  intro x hx
  obtain ⟨p, hp, rfl⟩ := List.mem_map.mp hx
  simp [Event.flushedValue, (hpushes p hp).1]

theorem acceptedTotal_pushed (pushes : List PushedMetric) : acceptedTotal k (pushes.map .pushed) = 0 := by
  simp [acceptedTotal, Function.comp_def, Event.acceptedValue]

theorem runMetricPush_eq (m : AggregateMetric) :
    m.runMetricPush =
      ({ m with counter := 0, eventCounters := (pushEventCounters m.eventCodes m.eventCounters).1 },
        (if 0 < m.counter then [⟨none, m.counter.toInt64⟩] else []) ++
          (pushEventCounters m.eventCodes m.eventCounters).2) := rfl

/-- A push round moves every counter's amount into its pushes. -/
theorem flushed_runMetricPush (m : AggregateMetric) :
    flushedTotal k (m.runMetricPush.2.map .pushed) + (m.runMetricPush.1.counterValue k).toNat =
      (m.counterValue k).toNat := by
  rw [runMetricPush_eq]
  cases k with
  | none =>
    simp only [List.map_append, flushedTotal_append, flushedTotal_none_pushEventCounters,
      counterValue]
    split
    · simp [flushedTotal, Event.flushedValue]
    · next hzero =>
      have : m.counter = 0 := by simpa using hzero
      simp [this]
  | some c =>
    have hdefault : flushedTotal (some c)
        ((if 0 < m.counter then [(⟨none, m.counter.toInt64⟩ : PushedMetric)] else []).map .pushed) = 0 := by
      split <;> simp [flushedTotal, Event.flushedValue]
    simp only [List.map_append, flushedTotal_append, hdefault, Nat.zero_add, counterValue]
    exact pushEventCounters_flushed m.eventCodes m.eventCounters c

theorem flow_runMetricPush (m : AggregateMetric) :
    Flow k m m.runMetricPush.1 (m.runMetricPush.2.map .pushed) := by
  have h := flushed_runMetricPush k m
  simp only [Flow, acceptedTotal_pushed, Nat.add_zero, h, le_refl, and_self]

theorem flow_incrementBy (m : AggregateMetric) (value : UInt64) (eventCode : String) :
    Flow k m (m.incrementBy value eventCode).2
      (if (m.incrementBy value eventCode).1 = successExecutionResult then
        [.accepted (counterOf eventCode) value] else []) := by
  rcases incrementBy_cases m value eventCode with ⟨hfail, hsame⟩ | ⟨hsuccess, hcounter⟩
  · rw [if_neg hfail, hsame]
    exact flow_refl k m
  · rw [if_pos hsuccess]
    simp only [Flow, hcounter k]
    by_cases hk : k = counterOf eventCode
    · have hadd := UInt64.toNat_add (m.counterValue k) value
      simp only [hk, if_true, acceptedTotal, flushedTotal, List.map_cons, List.map_nil,
        List.sum_cons, List.sum_nil, Event.acceptedValue, Event.flushedValue, Nat.add_zero,
        Nat.zero_add]
      rw [← hk, hadd]
      constructor
      · exact Nat.mod_le _ _
      · exact Nat.mod_mod _ _
    · simp only [hk, if_false, acceptedTotal, flushedTotal, List.map_cons, List.map_nil,
        List.sum_cons, List.sum_nil, Event.acceptedValue, Event.flushedValue, Ne.symm hk]
      omega

/-- One call keeps the account of every counter. -/
theorem flow_step {m m' : AggregateMetric} {call : Call} {events : List Event}
    (h : step m call = some (m', events)) : Flow k m m' events := by
  cases call with
  | run scheduled =>
    simp only [step, Option.some.injEq, Prod.mk.injEq] at h
    obtain ⟨rfl, rfl⟩ := h
    exact flow_of_counterValue k (counterValue_run k m scheduled)
  | stop =>
    simp only [step, Option.map_eq_some_iff] at h
    obtain ⟨⟨result, m''⟩, hstop, hm⟩ := h
    simp only [Prod.mk.injEq] at hm
    obtain ⟨rfl, rfl⟩ := hm
    exact flow_of_counterValue k (counterValue_stop k hstop)
  | incrementBy value eventCode =>
    simp only [step, Option.some.injEq, Prod.mk.injEq] at h
    obtain ⟨rfl, rfl⟩ := h
    exact flow_incrementBy k m value eventCode
  | runMetricPush =>
    simp only [step, Option.some.injEq, Prod.mk.injEq] at h
    obtain ⟨rfl, rfl⟩ := h
    exact flow_runMetricPush k m

/-- A whole run keeps the account of every counter. -/
theorem flow_exec {m m' : AggregateMetric} {calls : List Call} {events : List Event}
    (h : exec m calls = some (m', events)) : Flow k m m' events := by
  induction calls generalizing m m' events with
  | nil =>
    simp only [exec, Option.some.injEq, Prod.mk.injEq] at h
    obtain ⟨rfl, rfl⟩ := h
    exact flow_refl k m
  | cons call calls ih =>
    simp only [exec, Option.bind_eq_bind, Option.bind_eq_some_iff] at h
    obtain ⟨⟨m₁, e₁⟩, hstep, ⟨m₂, e₂⟩, hrest, hpure⟩ := h
    simp only [pure, Option.some.injEq, Prod.mk.injEq] at hpure
    obtain ⟨rfl, rfl⟩ := hpure
    exact Flow.trans k (flow_step k hstep) (ih hrest)

/-! ## Pushed values -/

/-- An `int64_t` whose bits read below 2^63 as a `uint64_t` is that number. -/
theorem toInt_of_toUInt64_lt (v : Int64) (h : v.toUInt64.toNat < 2 ^ 63) :
    v.toInt = v.toUInt64.toNat := by
  have hv : v.toInt = v.toBitVec.toInt := rfl
  have hn : v.toUInt64.toNat = v.toBitVec.toNat := rfl
  rw [hv, BitVec.toInt_eq_toNat_of_lt (by omega), hn]

theorem counterValue_new (eventCodeLabelsList : List String) :
    (new eventCodeLabelsList).counterValue k = 0 := by
  cases k <;> rfl

/-- Every call of `MetricPushHandler` in a step gets a positive amount. -/
theorem pushed_positive_step {m m' : AggregateMetric} {call : Call} {events : List Event}
    (h : step m call = some (m', events)) : ∀ p, Event.pushed p ∈ events → 0 < p.value.toUInt64 := by
  intro p hp
  cases call with
  | run scheduled =>
    simp only [step, Option.some.injEq, Prod.mk.injEq] at h
    simp [← h.2] at hp
  | stop =>
    simp only [step, Option.map_eq_some_iff] at h
    obtain ⟨_, _, hm⟩ := h
    simp [← (Prod.mk.injEq _ _ _ _ ▸ hm).2] at hp
  | incrementBy value eventCode =>
    simp only [step, Option.some.injEq, Prod.mk.injEq] at h
    rw [← h.2] at hp
    split at hp <;> simp at hp
  | runMetricPush =>
    simp only [step, Option.some.injEq, Prod.mk.injEq] at h
    rw [← h.2, List.mem_map] at hp
    obtain ⟨q, hq, hqp⟩ := hp
    have hqp' : q = p := Event.pushed.inj hqp
    subst hqp'
    rw [runMetricPush_eq, List.mem_append] at hq
    rcases hq with hdefault | hevent
    · split at hdefault
      · next hpos =>
        simp only [List.mem_singleton] at hdefault
        rw [hdefault, UInt64.toUInt64_toInt64]
        exact hpos
      · simp at hdefault
    · exact (pushEventCounters_pushes _ _ q hevent).2

theorem pushed_positive_exec {m m' : AggregateMetric} {calls : List Call} {events : List Event}
    (h : exec m calls = some (m', events)) : ∀ p, Event.pushed p ∈ events → 0 < p.value.toUInt64 := by
  induction calls generalizing m m' events with
  | nil =>
    simp only [exec, Option.some.injEq, Prod.mk.injEq] at h
    simp [← h.2]
  | cons call calls ih =>
    simp only [exec, Option.bind_eq_bind, Option.bind_eq_some_iff] at h
    obtain ⟨⟨m₁, e₁⟩, hstep, ⟨m₂, e₂⟩, hrest, hpure⟩ := h
    simp only [pure, Option.some.injEq, Prod.mk.injEq] at hpure
    obtain ⟨rfl, rfl⟩ := hpure
    intro p hp
    rcases List.mem_append.mp hp with hp | hp
    · exact pushed_positive_step hstep p hp
    · exact ih hrest p hp

theorem flushedValue_le {events : List Event} {e : Event} (he : e ∈ events) :
    Event.flushedValue k e ≤ flushedTotal k events := by
  induction events with
  | nil => simp at he
  | cons e' rest ih =>
    simp only [flushedTotal, List.map_cons, List.sum_cons] at ih ⊢
    rcases List.mem_cons.mp he with rfl | he
    · omega
    · have := ih he
      omega

theorem pushedTotal_eq_flushedTotal {events : List Event}
    (h : ∀ e ∈ events, Event.pushedValue k e = Event.flushedValue k e) :
    pushedTotal k events = flushedTotal k events := by
  induction events with
  | nil => rfl
  | cons e rest ih =>
    simp only [pushedTotal, flushedTotal, List.map_cons, List.sum_cons] at ih ⊢
    rw [h e List.mem_cons_self, ih (fun e' he' => h e' (List.mem_cons_of_mem e he')), Int.natCast_add]

/-- While the increments a counter accepted stay below 2^63, its account is
exact and every value pushed for it is the positive amount flushed. -/
theorem exact_of_lt {eventCodeLabelsList : List String} {calls : List Call} {m : AggregateMetric}
    {events : List Event} (h : exec (new eventCodeLabelsList) calls = some (m, events))
    (hlt : acceptedTotal k events < 2 ^ 63) :
    pushedTotal k events + (m.counterValue k).toNat = acceptedTotal k events ∧
      ∀ p, Event.pushed p ∈ events → p.metricInfo = k →
        0 < p.value.toInt ∧ p.metricValue = toString p.value.toUInt64.toNat := by
  obtain ⟨hle, hmod⟩ := flow_exec k h
  rw [counterValue_new, UInt64.toNat_zero, Nat.zero_add] at hle hmod
  have hexact : flushedTotal k events + (m.counterValue k).toNat = acceptedTotal k events := by
    omega
  -- each pushed amount is part of the flushed total, so below 2^63
  have hsmall : ∀ p, Event.pushed p ∈ events → p.metricInfo = k → p.value.toUInt64.toNat < 2 ^ 63 := by
    intro p hp hk
    have hp_le := flushedValue_le k hp
    simp only [Event.flushedValue, hk, if_true] at hp_le
    omega
  have hpushed : ∀ e ∈ events, Event.pushedValue k e = Event.flushedValue k e := by
    intro e he
    cases e with
    | accepted counter value => rfl
    | pushed p =>
      by_cases hk : p.metricInfo = k
      · simp only [Event.pushedValue, Event.flushedValue, hk, if_true]
        exact toInt_of_toUInt64_lt p.value (hsmall p he hk)
      · simp [Event.pushedValue, Event.flushedValue, hk]
  refine ⟨?_, ?_⟩
  · rw [pushedTotal_eq_flushedTotal k hpushed]
    exact_mod_cast hexact
  · intro p hp hk
    have hint := toInt_of_toUInt64_lt p.value (hsmall p hp hk)
    have hpos := pushed_positive_exec h p hp
    refine ⟨?_, ?_⟩
    · rw [hint]
      exact_mod_cast hpos
    · rw [PushedMetric.metricValue, hint]
      rfl

end Accounting

/-- On every run of a new metric each counter's account holds modulo 2^64,
and exactly with positive pushed texts while its accepted total stays below
2^63; an amount of 2^63 is pushed as a negative value, and increments summing
to 2^64 wrap the counter to 0 and are never pushed. -/
theorem aggregateMetric_pushes_negative_and_wraps :
    (∀ (eventCodeLabelsList : List String) (calls : List Call) (m : AggregateMetric)
        (events : List Event) (k : Option String),
      exec (new eventCodeLabelsList) calls = some (m, events) →
        flushedTotal k events + (m.counterValue k).toNat ≤ acceptedTotal k events ∧
        (flushedTotal k events + (m.counterValue k).toNat) % 2 ^ 64 =
          acceptedTotal k events % 2 ^ 64 ∧
        (acceptedTotal k events < 2 ^ 63 →
          pushedTotal k events + (m.counterValue k).toNat = acceptedTotal k events ∧
          ∀ p, Event.pushed p ∈ events → p.metricInfo = k →
            0 < p.value.toInt ∧ p.metricValue = toString p.value.toUInt64.toNat)) ∧
    (∃ m events,
      exec (new []) [.run true, .incrementBy 9223372036854775808 "", .runMetricPush] =
        some (m, events) ∧
      events = [.accepted none 9223372036854775808, .pushed ⟨none, -9223372036854775808⟩] ∧
      pushedTotal none events + (m.counterValue none).toNat = -9223372036854775808 ∧
      acceptedTotal none events = 9223372036854775808 ∧
      PushedMetric.metricValue ⟨none, -9223372036854775808⟩ = "-9223372036854775808") ∧
    (∃ m events,
      exec (new []) [.run true, .incrementBy 18446744073709551615 "", .incrementBy 1 "",
        .runMetricPush] = some (m, events) ∧
      events = [.accepted none 18446744073709551615, .accepted none 1] ∧
      m.counterValue none = 0 ∧
      acceptedTotal none events = 18446744073709551616) := by
  refine ⟨?_, ⟨_, _, rfl, ?_⟩, ⟨_, _, rfl, ?_⟩⟩
  · intro eventCodeLabelsList calls m events k h
    obtain ⟨hle, hmod⟩ := flow_exec k h
    rw [counterValue_new, UInt64.toNat_zero, Nat.zero_add] at hle hmod
    exact ⟨hle, hmod, exact_of_lt k h⟩
  · decide +kernel
  · decide +kernel

theorem aggregateMetric_pushes_negative_and_wraps_of_one_event :
    ∃ m events, exec (new ["e"]) [.run true, .incrementBy 5 "e", .runMetricPush] = some (m, events) ∧
      flushedTotal (some "e") events + (m.counterValue (some "e")).toNat ≤
        acceptedTotal (some "e") events := by
  refine ⟨_, _, rfl, ?_⟩
  exact (aggregateMetric_pushes_negative_and_wraps.1 ["e"]
    [.run true, .incrementBy 5 "e", .runMetricPush] _ _ (some "e") rfl).1

end ControlPlane.Cpio
