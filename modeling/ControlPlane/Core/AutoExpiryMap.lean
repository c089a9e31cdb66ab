import ControlPlane.Core.Common

/-!
# The auto-expiry concurrent map

`AutoExpiryConcurrentMap` (src/cc/core/common/auto_expiry_concurrent_map)
maps each key to a shared record holding the value, an expiration time and
two flags, `being_evicted` and `is_evictable`. A garbage-collection round
marks every evictable, expired record as being evicted and hands each one to
`on_before_element_deletion_callback` with a continuation; an answer
`can_delete = true` erases the record's key from the map, `false` clears the
mark. The last answer of a round schedules the next round; a round that
finds nothing schedules it at once.

The records are kept in a heap indexed by their identity, the map holds the
identity of each key's record, and an issued callback holds its key and its
record, as the `std::bind` of `OnRemoveEntryFromCacheLogged` does.

## Implementation notes

Requests run one at a time, so no lock is ever contended: `try_lock` in a
round succeeds. The clock is a field that only the environment advances.
`Run` is the start of every session and `Stop` is not modelled; the
executor accepts every `ScheduleFor`, so a scheduled round is a counter the
environment spends by running the round.
-/

namespace ControlPlane.Core

def scAutoExpiryConcurrentMap : Nat := 0x0015

def scAutoExpiryConcurrentMapCannotSchedule : StatusCode :=
  makeErrorCode scAutoExpiryConcurrentMap 0x0001

def scAutoExpiryConcurrentMapInvalidExpiration : StatusCode :=
  makeErrorCode scAutoExpiryConcurrentMap 0x0002

def scAutoExpiryConcurrentMapEntryBeingDeleted : StatusCode :=
  makeErrorCode scAutoExpiryConcurrentMap 0x0004

/-- A record of the map. -/
structure AutoExpiryConcurrentMapEntry (V : Type) where
  entry : V
  beingEvicted : Bool
  isEvictable : Bool
  expirationTime : Nat
  deriving DecidableEq, Repr

namespace AutoExpiryConcurrentMapEntry

variable {V : Type}

/-- The constructor: not being evicted, evictable, and expiring
`expirationInSeconds` after `now` (in nanoseconds). -/
def make (entry : V) (expirationInSeconds now : Nat) : AutoExpiryConcurrentMapEntry V :=
  ⟨entry, false, true, now + expirationInSeconds * 1000000000⟩

def extendExpiration (e : AutoExpiryConcurrentMapEntry V) (expirationSeconds now : Nat) :
    ExecutionResult × AutoExpiryConcurrentMapEntry V :=
  if expirationSeconds = 0 then
    (failureExecutionResult scAutoExpiryConcurrentMapInvalidExpiration, e)
  else if e.beingEvicted then (failureExecutionResult scAutoExpiryConcurrentMapEntryBeingDeleted, e)
  else (successExecutionResult, { e with expirationTime := now + expirationSeconds * 1000000000 })

def isExpired (e : AutoExpiryConcurrentMapEntry V) (now : Nat) : Bool :=
  decide (e.expirationTime < now)

/-- The record without its eviction mark: what a round leaves unchanged. -/
def unmarked (e : AutoExpiryConcurrentMapEntry V) : AutoExpiryConcurrentMapEntry V :=
  { e with beingEvicted := false }

@[simp] theorem isEvictable_unmarked (e : AutoExpiryConcurrentMapEntry V) :
    e.unmarked.isEvictable = e.isEvictable := rfl

@[simp] theorem isExpired_unmarked (e : AutoExpiryConcurrentMapEntry V) (now : Nat) :
    e.unmarked.isExpired now = e.isExpired now := rfl

end AutoExpiryConcurrentMapEntry

/-- The constructor's parameters. -/
structure AutoExpiryConfig where
  mapEntryLifetimeSeconds : Nat
  extendEntryLifetimeOnAccess : Bool
  blockEntryWhileEviction : Bool
  deriving DecidableEq, Repr

structure AutoExpiryConcurrentMap (K V : Type) [DecidableEq K] where
  /-- Each key's record, by its identity in `records`. -/
  concurrentMap : ConcurrentMap K Nat
  records : List (AutoExpiryConcurrentMapEntry V)
  /-- The deletion callbacks issued and not yet answered: key and record. -/
  pendingCallbacks : List (K × Nat)
  pendingGarbageCollectionCallbacks : Nat
  isRunning : Bool
  /-- Rounds scheduled and not yet run. -/
  scheduledRounds : Nat
  now : Nat

/-- What happens to the map: a request, or an event of its environment. -/
inductive MapOp (K V : Type) where
  | insert (key : K) (value : V)
  | find (key : K)
  | erase (key : K)
  | disableEviction (key : K)
  | enableEviction (key : K)
  | advanceClock (nanoseconds : Nat)
  /-- The executor runs a scheduled round. -/
  | garbageCollect
  /-- The `index`-th callback not yet answered is answered. -/
  | answer (index : Nat) (canDelete : Bool)

namespace AutoExpiryConcurrentMap

variable {K V : Type} [DecidableEq K] (config : AutoExpiryConfig)

def empty : AutoExpiryConcurrentMap K V := ⟨∅, [], [], 0, false, 0, 0⟩

/-- The identity and the record the key holds. -/
def recordOf (m : AutoExpiryConcurrentMap K V) (key : K) :
    Option (Nat × AutoExpiryConcurrentMapEntry V) :=
  (m.concurrentMap.find key).bind fun id => (m.records[id]?).map fun e => (id, e)

def modifyRecord (m : AutoExpiryConcurrentMap K V) (id : Nat)
    (f : AutoExpiryConcurrentMapEntry V → AutoExpiryConcurrentMapEntry V) :
    AutoExpiryConcurrentMap K V :=
  { m with records := m.records.modify id f }

/-- The extension an access makes, when the map extends on access and the
record is not being evicted. -/
def extendOnAccess (m : AutoExpiryConcurrentMap K V) (id : Nat)
    (e : AutoExpiryConcurrentMapEntry V) : AutoExpiryConcurrentMap K V :=
  if config.extendEntryLifetimeOnAccess && !e.beingEvicted then
    m.modifyRecord id fun e => (e.extendExpiration config.mapEntryLifetimeSeconds m.now).2
  else m

/-- `ScheduleGarbageCollection`: a round is scheduled only while running. -/
def scheduleGarbageCollection (m : AutoExpiryConcurrentMap K V) :
    ExecutionResult × AutoExpiryConcurrentMap K V :=
  if m.isRunning then (successExecutionResult, { m with scheduledRounds := m.scheduledRounds + 1 })
  else (failureExecutionResult scAutoExpiryConcurrentMapCannotSchedule, m)

def run (m : AutoExpiryConcurrentMap K V) : ExecutionResult × AutoExpiryConcurrentMap K V :=
  scheduleGarbageCollection { m with isRunning := true }

/-- `Insert`: a new key gets a new record; a present key keeps its record,
which the insert reads (and may extend) unless it is being evicted and the
map blocks such records. -/
def insert (m : AutoExpiryConcurrentMap K V) (key : K) (value : V) :
    (ExecutionResult × Option V) × AutoExpiryConcurrentMap K V :=
  match ConcurrentMap.insert m.concurrentMap key m.records.length with
  | .ok map =>
      ((successExecutionResult, some value),
        { m with
          concurrentMap := map
          records := m.records ++
            [AutoExpiryConcurrentMapEntry.make value config.mapEntryLifetimeSeconds m.now] })
  | .error r =>
      if r ≠ failureExecutionResult scConcurrentMapEntryAlreadyExists then ((r, none), m)
      else
        match m.recordOf key with
        | none => ((r, none), m)
        | some (id, e) =>
            if config.blockEntryWhileEviction && e.beingEvicted then
              ((failureExecutionResult scAutoExpiryConcurrentMapEntryBeingDeleted, none), m)
            else ((r, some e.entry), m.extendOnAccess config id e)

def find (m : AutoExpiryConcurrentMap K V) (key : K) :
    (ExecutionResult × Option V) × AutoExpiryConcurrentMap K V :=
  match m.recordOf key with
  | none => ((failureExecutionResult scConcurrentMapEntryDoesNotExist, none), m)
  | some (id, e) =>
      if config.blockEntryWhileEviction && e.beingEvicted then
        ((failureExecutionResult scAutoExpiryConcurrentMapEntryBeingDeleted, none), m)
      else ((successExecutionResult, some e.entry), m.extendOnAccess config id e)

def erase (m : AutoExpiryConcurrentMap K V) (key : K) :
    ExecutionResult × AutoExpiryConcurrentMap K V :=
  match ConcurrentMap.erase m.concurrentMap key with
  | .ok map => (successExecutionResult, { m with concurrentMap := map })
  | .error r => (r, m)

/-- `DisableEviction` and `EnableEviction`, which differ in the flag they
set. -/
def setEvictable (flag : Bool) (m : AutoExpiryConcurrentMap K V) (key : K) :
    ExecutionResult × AutoExpiryConcurrentMap K V :=
  match m.recordOf key with
  | none => (failureExecutionResult scConcurrentMapEntryDoesNotExist, m)
  | some (id, e) =>
      if e.beingEvicted then (failureExecutionResult scAutoExpiryConcurrentMapEntryBeingDeleted, m)
      else
        (successExecutionResult, m.modifyRecord id fun e =>
          { (if config.extendEntryLifetimeOnAccess then
              (e.extendExpiration config.mapEntryLifetimeSeconds m.now).2
            else e) with isEvictable := flag })

def disableEviction (m : AutoExpiryConcurrentMap K V) (key : K) :
    ExecutionResult × AutoExpiryConcurrentMap K V :=
  setEvictable config false m key

def enableEviction (m : AutoExpiryConcurrentMap K V) (key : K) :
    ExecutionResult × AutoExpiryConcurrentMap K V :=
  setEvictable config true m key

/-- One key of a round: an evictable, expired record is marked as being
evicted and joins the elements to remove. -/
def collect (m : AutoExpiryConcurrentMap K V)
    (acc : List (AutoExpiryConcurrentMapEntry V) × List (K × Nat)) (key : K) :
    List (AutoExpiryConcurrentMapEntry V) × List (K × Nat) :=
  match m.concurrentMap.find key with
  | none => acc
  | some id =>
      match acc.1[id]? with
      | none => acc
      | some e =>
          if !e.isEvictable || !e.isExpired m.now then acc
          else (acc.1.set id { e with beingEvicted := true }, acc.2 ++ [(key, id)])

/-- `RunGarbageCollector`: the round's callbacks are issued, or, when there
are none, the next round is scheduled. -/
def runGarbageCollector (m : AutoExpiryConcurrentMap K V) : AutoExpiryConcurrentMap K V :=
  let round := m.concurrentMap.keys.foldl (collect m) (m.records, [])
  if round.2.length = 0 then (scheduleGarbageCollection { m with records := round.1 }).2
  else
    { m with
      records := round.1
      pendingGarbageCollectionCallbacks := round.2.length
      pendingCallbacks := m.pendingCallbacks ++ round.2 }

/-- The first half of `OnRemoveEntryFromCacheLogged`: the key is erased when
the answer allows it and the erase finds the key; otherwise the record's mark
is cleared. -/
def removeEntry (m : AutoExpiryConcurrentMap K V) (key : K) (id : Nat) (canDelete : Bool) :
    AutoExpiryConcurrentMap K V :=
  if canDelete then
    match ConcurrentMap.erase m.concurrentMap key with
    | .ok map => { m with concurrentMap := map }
    | .error _ => m.modifyRecord id fun e => { e with beingEvicted := false }
  else m.modifyRecord id fun e => { e with beingEvicted := false }

/-- `OnRemoveEntryFromCacheLogged` for the callback issued for `key` and
record `id`: the entry is removed, and the last answer of the round
schedules the next one. -/
def onRemoveEntryFromCacheLogged (m : AutoExpiryConcurrentMap K V) (key : K) (id : Nat)
    (canDelete : Bool) : AutoExpiryConcurrentMap K V :=
  let m₁ := m.removeEntry key id canDelete
  let m₂ :=
    { m₁ with pendingGarbageCollectionCallbacks := m₁.pendingGarbageCollectionCallbacks - 1 }
  if m₁.pendingGarbageCollectionCallbacks ≠ 1 then m₂ else (scheduleGarbageCollection m₂).2

/-- One operation, with what a request returns to its caller. -/
def step (m : AutoExpiryConcurrentMap K V) :
    MapOp K V → AutoExpiryConcurrentMap K V × Option (ExecutionResult × Option V)
  | .insert key value => let r := m.insert config key value; (r.2, some r.1)
  | .find key => let r := m.find config key; (r.2, some r.1)
  | .erase key => let r := m.erase key; (r.2, some (r.1, none))
  | .disableEviction key => let r := m.disableEviction config key; (r.2, some (r.1, none))
  | .enableEviction key => let r := m.enableEviction config key; (r.2, some (r.1, none))
  | .advanceClock nanoseconds => ({ m with now := m.now + nanoseconds }, none)
  | .garbageCollect =>
      if m.scheduledRounds = 0 then (m, none)
      else (runGarbageCollector { m with scheduledRounds := m.scheduledRounds - 1 }, none)
  | .answer index canDelete =>
      match m.pendingCallbacks[index]? with
      | none => (m, none)
      | some (key, id) =>
          (onRemoveEntryFromCacheLogged
            { m with pendingCallbacks := m.pendingCallbacks.eraseIdx index } key id canDelete, none)

/-- The map after construction and `Run`. -/
def start : AutoExpiryConcurrentMap K V := (run empty).2

/-- The operations one after another, with every reply. -/
def runOps (m : AutoExpiryConcurrentMap K V) :
    List (MapOp K V) → AutoExpiryConcurrentMap K V × List (Option (ExecutionResult × Option V))
  | [] => (m, [])
  | op :: ops =>
      let r := step config m op
      let rest := runOps r.1 ops
      (rest.1, r.2 :: rest.2)

/-! ## The invariant of a running map -/

/-- `m'` differs from `m` at most in what its records hold. -/
structure Frame (m m' : AutoExpiryConcurrentMap K V) : Prop where
  concurrentMap : m'.concurrentMap = m.concurrentMap
  length_records : m'.records.length = m.records.length
  pendingCallbacks : m'.pendingCallbacks = m.pendingCallbacks
  pendingGarbageCollectionCallbacks :
    m'.pendingGarbageCollectionCallbacks = m.pendingGarbageCollectionCallbacks
  isRunning : m'.isRunning = m.isRunning
  scheduledRounds : m'.scheduledRounds = m.scheduledRounds

/-- What holds of every map a session reaches: it runs, the counter of
outstanding callbacks is their number, exactly one round is either
scheduled or waiting for its answers, and every key holds a record. -/
structure Inv (m : AutoExpiryConcurrentMap K V) : Prop where
  running : m.isRunning = true
  counter : m.pendingGarbageCollectionCallbacks = m.pendingCallbacks.length
  rounds : m.scheduledRounds + min 1 m.pendingCallbacks.length = 1
  map_lt : ∀ k id, m.concurrentMap.lookup k = some id → id < m.records.length

variable {config}

theorem Frame.refl (m : AutoExpiryConcurrentMap K V) : Frame m m :=
  ⟨rfl, rfl, rfl, rfl, rfl, rfl⟩

theorem frame_modifyRecord (m : AutoExpiryConcurrentMap K V) (id : Nat)
    (f : AutoExpiryConcurrentMapEntry V → AutoExpiryConcurrentMapEntry V) :
    Frame m (m.modifyRecord id f) :=
  ⟨rfl, List.length_modify f m.records id, rfl, rfl, rfl, rfl⟩

theorem frame_extendOnAccess (m : AutoExpiryConcurrentMap K V) (id : Nat)
    (e : AutoExpiryConcurrentMapEntry V) : Frame m (m.extendOnAccess config id e) := by
  unfold extendOnAccess
  split
  · exact frame_modifyRecord m id _
  · exact Frame.refl m

theorem Inv.of_frame {m m' : AutoExpiryConcurrentMap K V} (h : Inv m) (hf : Frame m m') :
    Inv m' := by
  constructor
  · rw [hf.isRunning]
    exact h.running
  · rw [hf.pendingGarbageCollectionCallbacks, hf.pendingCallbacks]
    exact h.counter
  · rw [hf.scheduledRounds, hf.pendingCallbacks]
    exact h.rounds
  · intro k id hk
    rw [hf.concurrentMap] at hk
    rw [hf.length_records]
    exact h.map_lt k id hk

theorem inv_start : Inv (start : AutoExpiryConcurrentMap K V) := by
  constructor
  · rfl
  · rfl
  · rfl
  · intro k id hk
    simp [start, run, scheduleGarbageCollection, empty] at hk

/-! ## A garbage-collection round -/

open AutoExpiryConcurrentMapEntry

/-- The callback for `p` may be issued by a round of `m` over `records`: its
key holds the record, which is evictable and expired. -/
def Issuable (m : AutoExpiryConcurrentMap K V) (records : List (AutoExpiryConcurrentMapEntry V))
    (p : K × Nat) : Prop :=
  m.concurrentMap.lookup p.1 = some p.2 ∧
    ∃ e, (records.map unmarked)[p.2]? = some e ∧ e.isEvictable = true ∧ e.isExpired m.now = true

/-- Marking a record changes nothing but its mark. -/
theorem map_unmarked_set_mark {l : List (AutoExpiryConcurrentMapEntry V)} {i : Nat}
    {e : AutoExpiryConcurrentMapEntry V} (h : l[i]? = some e) :
    (l.set i { e with beingEvicted := true }).map unmarked = l.map unmarked := by
  apply List.ext_getElem?
  intro j
  rw [List.getElem?_map, List.getElem?_map, List.getElem?_set]
  by_cases hij : i = j
  · subst hij
    obtain ⟨hlt, rfl⟩ := List.getElem?_eq_some_iff.mp h
    simp [hlt, unmarked]
  · rw [if_neg hij]

/-- One key of a round marks at most one record and issues at most its
callback. -/
theorem collect_spec (m : AutoExpiryConcurrentMap K V)
    (acc : List (AutoExpiryConcurrentMapEntry V) × List (K × Nat)) (key : K) :
    (collect m acc key).1.map unmarked = acc.1.map unmarked ∧
      ∃ issued, (collect m acc key).2 = acc.2 ++ issued ∧ ∀ p ∈ issued, Issuable m acc.1 p := by
  unfold collect
  split
  · exact ⟨rfl, [], by simp, by simp⟩
  · next id hid =>
      split
      · exact ⟨rfl, [], by simp, by simp⟩
      · next e he =>
          split
          · exact ⟨rfl, [], by simp, by simp⟩
          · next hcond =>
              refine ⟨map_unmarked_set_mark he, [(key, id)], rfl, ?_⟩
              · intro p hp
                rw [List.mem_singleton] at hp
                subst hp
                simp only [Bool.or_eq_true, Bool.not_eq_eq_eq_not, Bool.not_true, not_or,
                  Bool.not_eq_false] at hcond
                exact ⟨hid, unmarked e, by simp [List.getElem?_map, he], hcond.1, hcond.2⟩

/-- A round's keys, one after another: the records change only in their
marks, and every callback issued is issuable. -/
theorem foldl_collect (m : AutoExpiryConcurrentMap K V) (keys : List K) :
    ∀ acc : List (AutoExpiryConcurrentMapEntry V) × List (K × Nat),
      (keys.foldl (collect m) acc).1.map unmarked = acc.1.map unmarked ∧
        ∃ issued, (keys.foldl (collect m) acc).2 = acc.2 ++ issued ∧
          ∀ p ∈ issued, Issuable m acc.1 p := by
  induction keys with
  | nil => exact fun acc => ⟨rfl, [], by simp, by simp⟩
  | cons key keys ih =>
      intro acc
      obtain ⟨hmap₁, issued₁, h₁, hiss₁⟩ := collect_spec m acc key
      obtain ⟨hmap, issued, h, hiss⟩ := ih (collect m acc key)
      refine ⟨hmap.trans hmap₁, issued₁ ++ issued, ?_, ?_⟩
      · rw [List.foldl_cons, h, h₁, List.append_assoc]
      · intro p hp
        rcases List.mem_append.mp hp with hp | hp
        · exact hiss₁ p hp
        · -- issuable over the marked records is issuable over the old ones
          obtain ⟨hk, e, he, hev⟩ := hiss p hp
          exact ⟨hk, e, by rwa [hmap₁] at he, hev⟩

/-- What a round does: its records differ only in their marks, and either
it issues no callback and schedules the next round, or it issues issuable
callbacks and waits for their answers. -/
theorem runGarbageCollector_spec (m : AutoExpiryConcurrentMap K V) :
    ∃ records issued, records.map unmarked = m.records.map unmarked ∧
      (∀ p ∈ issued, Issuable m m.records p) ∧
      ((issued = [] ∧
          runGarbageCollector m = (scheduleGarbageCollection { m with records := records }).2) ∨
        (issued ≠ [] ∧ runGarbageCollector m =
          { m with
            records := records
            pendingGarbageCollectionCallbacks := issued.length
            pendingCallbacks := m.pendingCallbacks ++ issued })) := by
  obtain ⟨hmap, issued, h, hiss⟩ := foldl_collect m m.concurrentMap.keys (m.records, [])
  rw [List.nil_append] at h
  refine ⟨_, issued, hmap, hiss, ?_⟩
  unfold runGarbageCollector
  dsimp only
  rw [h]
  by_cases hnil : issued = []
  · exact .inl ⟨hnil, by rw [if_pos (by simp [hnil])]⟩
  · exact .inr ⟨hnil, by rw [if_neg (by simpa using hnil)]⟩

/-! ## Each request and event keeps the invariant -/

variable (config) in
theorem find_frame (m : AutoExpiryConcurrentMap K V) (key : K) :
    Frame m (m.find config key).2 := by
  unfold find
  split
  · exact Frame.refl m
  · split
    · exact Frame.refl m
    · exact frame_extendOnAccess m _ _

variable (config) in
theorem setEvictable_frame (flag : Bool) (m : AutoExpiryConcurrentMap K V) (key : K) :
    Frame m (setEvictable config flag m key).2 := by
  unfold setEvictable
  split
  · exact Frame.refl m
  · split
    · exact Frame.refl m
    · exact frame_modifyRecord m _ _

variable (config) in
/-- An insert adds a new key with a new record, or changes at most what the
records hold. -/
theorem insert_cases (m : AutoExpiryConcurrentMap K V) (key : K) (value : V) :
    (key ∉ m.concurrentMap ∧ (m.insert config key value).2 =
      { m with
        concurrentMap := AList.insert key m.records.length m.concurrentMap
        records := m.records ++ [make value config.mapEntryLifetimeSeconds m.now] }) ∨
      Frame m (m.insert config key value).2 := by
  unfold insert
  split
  · next map hins =>
      obtain ⟨hk, rfl⟩ := ConcurrentMap.insert_eq_ok hins
      exact .inl ⟨hk, rfl⟩
  · right
    split
    · exact Frame.refl m
    · split
      · exact Frame.refl m
      · split
        · exact Frame.refl m
        · exact frame_extendOnAccess m _ _

/-- An erase drops the key, whichever record it holds. -/
theorem erase_spec (m : AutoExpiryConcurrentMap K V) (key : K) :
    ∃ map, (m.erase key).2 = { m with concurrentMap := map } ∧
      ∀ k, map.lookup k = if k = key then none else m.concurrentMap.lookup k := by
  unfold erase
  split
  · next map herase =>
      obtain ⟨-, rfl⟩ := ConcurrentMap.erase_eq_ok herase
      refine ⟨_, rfl, fun k => ?_⟩
      split_ifs with hkk
      · rw [hkk]
        exact AList.lookup_erase _ _
      · exact AList.lookup_erase_ne hkk
  · next r herase =>
      have hk := (ConcurrentMap.erase_eq_error herase).1
      refine ⟨m.concurrentMap, rfl, fun k => ?_⟩
      split_ifs with hkk
      · rw [hkk]
        exact AList.lookup_eq_none.mpr hk
      · rfl

/-- The first half of an answer changes the map or one record's mark,
nothing else; the map loses the key when the answer allows it. -/
theorem removeEntry_spec (m : AutoExpiryConcurrentMap K V) (key : K) (id : Nat)
    (canDelete : Bool) :
    (∀ k, (m.removeEntry key id canDelete).concurrentMap.lookup k =
        if canDelete = true ∧ k = key then none else m.concurrentMap.lookup k) ∧
      Frame m { m.removeEntry key id canDelete with concurrentMap := m.concurrentMap } := by
  unfold removeEntry
  cases canDelete with
  | false => exact ⟨fun k => by simp [modifyRecord], frame_modifyRecord m id _⟩
  | true =>
      rw [if_pos rfl]
      split
      · next map herase =>
          obtain ⟨-, rfl⟩ := ConcurrentMap.erase_eq_ok herase
          refine ⟨fun k => ?_, Frame.refl m⟩
          by_cases hkk : k = key
          · rw [hkk]
            simp
          · simp [hkk, AList.lookup_erase_ne hkk]
      · next r herase =>
          have hk := (ConcurrentMap.erase_eq_error herase).1
          refine ⟨fun k => ?_, frame_modifyRecord m id _⟩
          by_cases hkk : k = key
          · rw [hkk]
            simpa [modifyRecord] using AList.lookup_eq_none.mpr hk
          · simp [hkk, modifyRecord]

/-- The counter the answer tests is the one before it: the first half does
not touch it. -/
theorem onRemoveEntryFromCacheLogged_eq (m : AutoExpiryConcurrentMap K V) (key : K) (id : Nat)
    (canDelete : Bool) :
    m.onRemoveEntryFromCacheLogged key id canDelete =
      if m.pendingGarbageCollectionCallbacks ≠ 1 then
        { m.removeEntry key id canDelete with
          pendingGarbageCollectionCallbacks := m.pendingGarbageCollectionCallbacks - 1 }
      else (scheduleGarbageCollection { m.removeEntry key id canDelete with
          pendingGarbageCollectionCallbacks := m.pendingGarbageCollectionCallbacks - 1 }).2 := by
  have hcount := (removeEntry_spec m key id canDelete).2.pendingGarbageCollectionCallbacks
  simp only at hcount
  unfold onRemoveEntryFromCacheLogged
  dsimp only
  rw [hcount]

/-- An answer changes the map and the records only in its first half. -/
theorem onRemoveEntryFromCacheLogged_maps (m : AutoExpiryConcurrentMap K V) (key : K)
    (id : Nat) (canDelete : Bool) :
    (m.onRemoveEntryFromCacheLogged key id canDelete).concurrentMap =
        (m.removeEntry key id canDelete).concurrentMap ∧
      (m.onRemoveEntryFromCacheLogged key id canDelete).records =
        (m.removeEntry key id canDelete).records := by
  rw [onRemoveEntryFromCacheLogged_eq]
  split_ifs
  · exact ⟨rfl, rfl⟩
  · unfold scheduleGarbageCollection
    split_ifs <;> exact ⟨rfl, rfl⟩

/-- An answer allowing the deletion drops the key, whichever record it
holds; any other answer leaves the map as it is. -/
theorem lookup_onRemoveEntryFromCacheLogged (m : AutoExpiryConcurrentMap K V) (key : K)
    (id : Nat) (canDelete : Bool) (k : K) :
    (m.onRemoveEntryFromCacheLogged key id canDelete).concurrentMap.lookup k =
      if canDelete = true ∧ k = key then none else m.concurrentMap.lookup k := by
  rw [(onRemoveEntryFromCacheLogged_maps m key id canDelete).1]
  exact (removeEntry_spec m key id canDelete).1 k

theorem runGarbageCollector_concurrentMap (m : AutoExpiryConcurrentMap K V) :
    (runGarbageCollector m).concurrentMap = m.concurrentMap := by
  obtain ⟨records, issued, -, -, hcases⟩ := runGarbageCollector_spec m
  rcases hcases with ⟨-, heq⟩ | ⟨-, heq⟩
  · rw [heq]
    unfold scheduleGarbageCollection
    split_ifs <;> rfl
  · rw [heq]

/-- What a find answers depends on the map and the records only. -/
theorem find_fst_congr {m m' : AutoExpiryConcurrentMap K V} (key : K)
    (hmap : m'.concurrentMap = m.concurrentMap) (hrec : m'.records = m.records) :
    (m'.find config key).1 = (m.find config key).1 := by
  have hrecord : m'.recordOf key = m.recordOf key := by
    simp only [recordOf, hmap, hrec]
  unfold find
  rw [hrecord]
  split
  · rfl
  · split <;> rfl

theorem step_garbageCollect (m : AutoExpiryConcurrentMap K V) :
    (step config m .garbageCollect).1 =
      if m.scheduledRounds = 0 then m
      else runGarbageCollector { m with scheduledRounds := m.scheduledRounds - 1 } := by
  unfold step
  split_ifs <;> rfl

theorem step_answer_of_none {m : AutoExpiryConcurrentMap K V} {i : Nat}
    (hp : m.pendingCallbacks[i]? = none) (canDelete : Bool) :
    (step config m (.answer i canDelete)).1 = m := by
  simp only [step, hp]

theorem step_answer_of_some {m : AutoExpiryConcurrentMap K V} {i : Nat} {key : K} {id : Nat}
    (hp : m.pendingCallbacks[i]? = some (key, id)) (canDelete : Bool) :
    (step config m (.answer i canDelete)).1 = onRemoveEntryFromCacheLogged
      { m with pendingCallbacks := m.pendingCallbacks.eraseIdx i } key id canDelete := by
  simp only [step, hp]

namespace Inv

variable {m : AutoExpiryConcurrentMap K V}

/-- A round is scheduled exactly when no callback is outstanding. -/
theorem scheduledRounds_eq (h : Inv m) :
    m.scheduledRounds = if m.pendingCallbacks = [] then 1 else 0 := by
  have hr := h.rounds
  split_ifs with hp
  · rw [hp] at hr
    simpa using hr
  · have : 0 < m.pendingCallbacks.length := List.length_pos_iff.mpr hp
    omega

theorem insert_new (h : Inv m) (key : K) (e : AutoExpiryConcurrentMapEntry V) :
    Inv { m with
      concurrentMap := AList.insert key m.records.length m.concurrentMap
      records := m.records ++ [e] } := by
  refine ⟨h.running, h.counter, h.rounds, ?_⟩
  intro k id hid
  simp only [List.length_append, List.length_singleton]
  by_cases hkk : k = key
  · rw [hkk, AList.lookup_insert, Option.some.injEq] at hid
    omega
  · rw [AList.lookup_insert_ne hkk] at hid
    have := h.map_lt k id hid
    omega

theorem erase (h : Inv m) (key : K) : Inv (m.erase key).2 := by
  obtain ⟨map, heq, hl⟩ := erase_spec m key
  rw [heq]
  refine ⟨h.running, h.counter, h.rounds, ?_⟩
  intro k id hid
  rw [hl k] at hid
  split_ifs at hid
  exact h.map_lt k id hid

/-- A round runs only when no callback is outstanding, and leaves either the
next round scheduled or its own callbacks outstanding. -/
theorem garbageCollect (h : Inv m) (hs : m.scheduledRounds ≠ 0) :
    Inv (runGarbageCollector { m with scheduledRounds := m.scheduledRounds - 1 }) := by
  have hpend : m.pendingCallbacks = [] := by
    by_contra hne
    rw [h.scheduledRounds_eq, if_neg hne] at hs
    exact hs rfl
  have hone : m.scheduledRounds = 1 := by rw [h.scheduledRounds_eq, if_pos hpend]
  obtain ⟨records, issued, hmap, -, hcases⟩ :=
    runGarbageCollector_spec { m with scheduledRounds := m.scheduledRounds - 1 }
  have hlen : records.length = m.records.length := by
    simpa using congrArg List.length hmap
  rcases hcases with ⟨-, heq⟩ | ⟨hne, heq⟩
  · -- nothing to evict: the next round is scheduled at once
    rw [heq]
    unfold scheduleGarbageCollection
    rw [if_pos h.running]
    refine ⟨h.running, h.counter, ?_, ?_⟩
    · simp [hpend, hone]
    · intro k id hid
      rw [hlen]
      exact h.map_lt k id hid
  · -- the round's callbacks are outstanding, and no round is scheduled
    rw [heq]
    have hlenp : 0 < issued.length := List.length_pos_iff.mpr hne
    refine ⟨h.running, by simp [hpend], ?_, ?_⟩
    · simp only [hpend, hone, List.nil_append]
      omega
    · intro k id hid
      rw [hlen]
      exact h.map_lt k id hid

/-- An answer takes one outstanding callback away, and the last one
schedules the next round. -/
theorem answer (h : Inv m) {i : Nat} {key : K} {id : Nat}
    (hp : m.pendingCallbacks[i]? = some (key, id)) (canDelete : Bool) :
    Inv (onRemoveEntryFromCacheLogged
      { m with pendingCallbacks := m.pendingCallbacks.eraseIdx i } key id canDelete) := by
  have hi : i < m.pendingCallbacks.length := (List.getElem?_eq_some_iff.mp hp).1
  have hzero : m.scheduledRounds = 0 := by
    rw [h.scheduledRounds_eq, if_neg (List.ne_nil_of_length_pos (by omega))]
  have hlenp : (m.pendingCallbacks.eraseIdx i).length = m.pendingCallbacks.length - 1 := by
    rw [List.length_eraseIdx, if_pos hi]
  rw [onRemoveEntryFromCacheLogged_eq]
  obtain ⟨hlook, hf⟩ := removeEntry_spec
    { m with pendingCallbacks := m.pendingCallbacks.eraseIdx i } key id canDelete
  generalize removeEntry _ key id canDelete = m₁ at hlook hf ⊢
  obtain ⟨-, hlen, hpend, hcount, hrun, hsched⟩ := hf
  simp only at hlook hlen hpend hcount hrun hsched ⊢
  -- the first half keeps every key on a record
  have hlt : ∀ k id', m₁.concurrentMap.lookup k = some id' → id' < m₁.records.length := by
    intro k id' hid
    rw [hlook k] at hid
    split_ifs at hid
    rw [hlen]
    exact h.map_lt k id' hid
  have hcounter := h.counter
  by_cases hc : m.pendingGarbageCollectionCallbacks = 1
  · -- the last answer: the next round is scheduled
    rw [if_neg (not_not.mpr hc)]
    unfold scheduleGarbageCollection
    rw [if_pos (by rw [hrun]; exact h.running)]
    refine ⟨by rw [hrun]; exact h.running, ?_, ?_, hlt⟩
    · simp only [hpend, hlenp]
      omega
    · simp only [hpend, hlenp, hsched, hzero]
      omega
  · rw [if_pos hc]
    refine ⟨by rw [hrun]; exact h.running, ?_, ?_, hlt⟩
    · simp only [hpend, hlenp]
      omega
    · simp only [hpend, hlenp, hsched, hzero]
      omega

theorem step (h : Inv m) (op : MapOp K V) : Inv (step config m op).1 := by
  cases op with
  | insert key value =>
      rcases insert_cases config m key value with ⟨-, heq⟩ | hf
      · show Inv (m.insert config key value).2
        rw [heq]
        exact h.insert_new key _
      · exact h.of_frame hf
  | find key => exact h.of_frame (find_frame config m key)
  | erase key => exact h.erase key
  | disableEviction key => exact h.of_frame (setEvictable_frame config false m key)
  | enableEviction key => exact h.of_frame (setEvictable_frame config true m key)
  | advanceClock nanoseconds => exact ⟨h.running, h.counter, h.rounds, h.map_lt⟩
  | garbageCollect =>
      rw [step_garbageCollect]
      split_ifs with hs
      · exact h
      · exact h.garbageCollect hs
  | answer index canDelete =>
      cases hp : m.pendingCallbacks[index]? with
      | none =>
          rw [step_answer_of_none hp]
          exact h
      | some p =>
          rw [step_answer_of_some hp]
          exact h.answer hp canDelete

/-- Every map a session reaches keeps the invariant. -/
theorem runOps (h : Inv m) (ops : List (MapOp K V)) : Inv (runOps config m ops).1 := by
  induction ops generalizing m with
  | nil => exact h
  | cons op ops ih => exact ih (h.step op)

end Inv

/-! ## What a session guarantees -/

/-- Over every session, exactly one round is at any time either scheduled or
waiting for the answers to its callbacks, and the counter the answers test
is the number of callbacks outstanding: the last answer of a round, and
only it, schedules the next round. -/
theorem runOps_one_round (ops : List (MapOp K V)) :
    (runOps config start ops).1.scheduledRounds +
        min 1 (runOps config start ops).1.pendingCallbacks.length = 1 ∧
      (runOps config start ops).1.pendingGarbageCollectionCallbacks =
        (runOps config start ops).1.pendingCallbacks.length := by
  have h : Inv (runOps config start ops).1 := inv_start.runOps ops
  exact ⟨h.rounds, h.counter⟩

/-- A round issues a callback only for a key that holds the record, and
only if the record was evictable and expired when the round inspected it. -/
theorem runGarbageCollector_issues {m : AutoExpiryConcurrentMap K V} {p : K × Nat}
    (hp : p ∈ (runGarbageCollector m).pendingCallbacks) (hold : p ∉ m.pendingCallbacks) :
    m.concurrentMap.lookup p.1 = some p.2 ∧
      ∃ e, m.records[p.2]? = some e ∧ e.isEvictable = true ∧ e.isExpired m.now = true := by
  obtain ⟨records, issued, -, hiss, hcases⟩ := runGarbageCollector_spec m
  have hmem : p ∈ issued := by
    rcases hcases with ⟨-, heq⟩ | ⟨-, heq⟩
    · rw [heq] at hp
      unfold scheduleGarbageCollection at hp
      split at hp <;> exact absurd hp hold
    · rw [heq] at hp
      exact (List.mem_append.mp hp).resolve_left hold
  obtain ⟨hk, e, he, hev, hexp⟩ := hiss p hmem
  rw [List.getElem?_map] at he
  obtain ⟨e', he', rfl⟩ := Option.map_eq_some_iff.mp he
  exact ⟨hk, e', he', hev, hexp⟩

/-- A key loses its record only through an erase of the key, or through an
answer allowing the deletion to a callback issued for the key, for whatever
record the callback was issued. -/
theorem lookup_step {m : AutoExpiryConcurrentMap K V} {k : K} {id : Nat}
    (h : m.concurrentMap.lookup k = some id) (op : MapOp K V) :
    (step config m op).1.concurrentMap.lookup k = some id ∨ op = .erase k ∨
      ∃ i id', op = .answer i true ∧ m.pendingCallbacks[i]? = some (k, id') := by
  cases op with
  | insert key value =>
      left
      rcases insert_cases config m key value with ⟨hk, heq⟩ | hf
      · show (m.insert config key value).2.concurrentMap.lookup k = some id
        have hne : k ≠ key := by
          rintro rfl
          exact hk (AList.lookup_isSome.mp (by rw [h]; rfl))
        rw [heq]
        exact (AList.lookup_insert_ne hne).trans h
      · exact (congrArg (AList.lookup k) hf.concurrentMap).trans h
  | find key =>
      exact .inl ((congrArg (AList.lookup k) (find_frame config m key).concurrentMap).trans h)
  | erase key =>
      obtain ⟨map, heq, hl⟩ := erase_spec m key
      by_cases hk : k = key
      · exact .inr (.inl (by rw [hk]))
      · left
        show (m.erase key).2.concurrentMap.lookup k = some id
        rw [heq]
        exact (hl k).trans (by rw [if_neg hk, h])
  | disableEviction key =>
      exact .inl ((congrArg (AList.lookup k)
        (setEvictable_frame config false m key).concurrentMap).trans h)
  | enableEviction key =>
      exact .inl ((congrArg (AList.lookup k)
        (setEvictable_frame config true m key).concurrentMap).trans h)
  | advanceClock nanoseconds => exact .inl h
  | garbageCollect =>
      left
      rw [step_garbageCollect]
      split_ifs
      · exact h
      · rw [runGarbageCollector_concurrentMap]
        exact h
  | answer index canDelete =>
      cases hp : m.pendingCallbacks[index]? with
      | none =>
          rw [step_answer_of_none hp]
          exact .inl h
      | some p =>
          obtain ⟨key, id'⟩ := p
          rw [step_answer_of_some hp, lookup_onRemoveEntryFromCacheLogged]
          by_cases hdel : canDelete = true ∧ k = key
          · obtain ⟨rfl, rfl⟩ := hdel
            exact .inr (.inr ⟨index, id', rfl, hp⟩)
          · rw [if_neg hdel]
            exact .inl h

/-- An answer allowing the deletion drops its key, whichever record the key
holds by then. -/
theorem answer_true_erases_key {m : AutoExpiryConcurrentMap K V} {i : Nat} {key : K} {id : Nat}
    (hp : m.pendingCallbacks[i]? = some (key, id)) :
    (step config m (.answer i true)).1.concurrentMap.lookup key = none := by
  rw [step_answer_of_some hp]
  exact (lookup_onRemoveEntryFromCacheLogged _ key id true key).trans (if_pos ⟨rfl, rfl⟩)

/-- After an answer refusing the deletion, a find of the key, when the key
still holds the record, returns the record's value. -/
theorem find_after_answer_false {m : AutoExpiryConcurrentMap K V} (h : Inv m) {i : Nat} {key : K}
    {id : Nat} (hp : m.pendingCallbacks[i]? = some (key, id))
    (hk : m.concurrentMap.lookup key = some id) :
    ∃ e, m.records[id]? = some e ∧
      ((step config m (.answer i false)).1.find config key).1 =
        (successExecutionResult, some e.entry) := by
  obtain ⟨e, he⟩ : ∃ e, m.records[id]? = some e :=
    ⟨_, List.getElem?_eq_getElem (h.map_lt key id hk)⟩
  refine ⟨e, he, ?_⟩
  obtain ⟨hmap, hrec⟩ := onRemoveEntryFromCacheLogged_maps
    { m with pendingCallbacks := m.pendingCallbacks.eraseIdx i } key id false
  rw [step_answer_of_some hp, find_fst_congr key hmap hrec]
  -- the mark is cleared, so nothing blocks the find
  have hrecord : (removeEntry { m with pendingCallbacks := m.pendingCallbacks.eraseIdx i }
      key id false).recordOf key = some (id, { e with beingEvicted := false }) := by
    simp [recordOf, removeEntry, modifyRecord, ConcurrentMap.find, hk, List.getElem?_modify, he]
  unfold find
  rw [hrecord]
  simp

/-! ## An answer removes a record inserted after its callback -/

/-- One-second records, blocked while evicted, not extended on access. -/
def evictionConfig : AutoExpiryConfig := ⟨1, false, true⟩

/-- Insert `1 ↦ 10`, let it expire, run a round (which issues the callback
for that record), then erase `1` and insert `1 ↦ 20`. -/
def reinsertSession : List (MapOp Nat Nat) :=
  [.insert 1 10, .advanceClock 2000000000, .garbageCollect, .erase 1, .insert 1 20]

/-- After the session the outstanding callback is the one issued for record
0, key 1 holds record 1 from a successful insert, and the answer allowing
the deletion of record 0 removes record 1: the find that follows fails. -/
theorem answer_removes_reinserted_record :
    (runOps evictionConfig start reinsertSession).1.pendingCallbacks = [(1, 0)] ∧
      (runOps evictionConfig start reinsertSession).2.getLast? =
        some (some (successExecutionResult, some 20)) ∧
      (runOps evictionConfig start reinsertSession).1.concurrentMap.lookup 1 = some 1 ∧
      (runOps evictionConfig start (reinsertSession ++ [.answer 0 true, .find 1])).2.getLast? =
        some (some (failureExecutionResult scConcurrentMapEntryDoesNotExist, none)) := by
  decide

end AutoExpiryConcurrentMap

end ControlPlane.Core