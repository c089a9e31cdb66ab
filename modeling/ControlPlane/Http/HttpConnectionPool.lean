import ControlPlane.Http.HttpConnection
import ControlPlane.Lib.RoundRobin

/-!
# `HttpConnectionPool`: one entry of connections per host

`HttpConnectionPool` (src/cc/core/http2_client/src/http_connection_pool.cc)
keeps, for each `host:service`, an entry of `max_connections_per_host_`
connections and a counter. The first `GetConnection` for a host inserts the
entry and fills it: it creates every connection and calls `Init` and `Run` on
it, and when one of them fails it erases the entry again. Later calls take
turns on the counter. A connection that `IsDropped` is recycled (`Stop`,
`Reset`, `Init`, `Run`) in place, and unless it is ready at once the call
hands out the first ready connection from it on, or answers a retry.

The pool sees a connection through the methods it calls,
`ConnectionMethods`. What the pool relies on is `ConnectionMethods.Lawful`:
`Reset` clears both flags, `Init` and `Run` leave them. The model's
`HttpConnection` meets it (`httpConnectionMethods_lawful`), and the connection
that the pool creates, initializes and runs is the one that `World.initial`
starts from.

## Implementation notes

`host_service_from_uri` is nghttp2's and is not modelled: a call gets its
answer. The pool's calls do not overlap, so no call finds an entry that
another is filling. The threads of a connection change it between the pool's
calls (an event of the run). Each `make_shared` gives a new object: the pool
counts the objects it allocated, and a connection is created with its address,
so that connections of one entry may answer `Init` differently. `at(i)` out of
range throws in a `noexcept` function, which terminates the process: the model
answers `none`. The order counter is a `uint64_t` and wraps.
-/

namespace ControlPlane.Http

open Core RoundRobin

def scHttp2ClientInvalidUri : StatusCode := makeErrorCode scHttp2Client 0x0001

def scHttp2ClientConnectionPoolIsNotAvailable : StatusCode := makeErrorCode scHttp2Client 0x000D

def scHttp2ClientHttpConnectionNotReady : StatusCode := makeErrorCode scHttp2Client 0x0035

/-- What `HttpConnection::Init` answers when the TLS context fails. -/
def scHttp2ClientTlsCtxError : StatusCode := makeErrorCode scHttp2Client 0x0009

def kHttpsTag : List Char := "https".toList

def kHttpTag : List Char := "http".toList

/-- The methods of `HttpConnection` that the pool calls, on connections of
type `C`. -/
structure ConnectionMethods (C : Type) where
  /-- `CreateHttpConnection(host, service, is_https, ...)`, at a new address. -/
  createHttpConnection : Nat → List Char → List Char → Bool → C
  init : C → ExecutionResult × C
  run : C → ExecutionResult × C
  stop : C → ExecutionResult × C
  reset : C → C
  isReady : C → Bool
  isDropped : C → Bool

namespace ConnectionMethods

variable {C : Type} (m : ConnectionMethods C)

/-- What the pool relies on: `Reset` clears both flags, and `Init` and `Run`
leave them. -/
structure Lawful : Prop where
  isReady_reset : ∀ c, m.isReady (m.reset c) = false
  isDropped_reset : ∀ c, m.isDropped (m.reset c) = false
  isReady_init : ∀ c, m.isReady (m.init c).2 = m.isReady c
  isDropped_init : ∀ c, m.isDropped (m.init c).2 = m.isDropped c
  isReady_run : ∀ c, m.isReady (m.run c).2 = m.isReady c
  isDropped_run : ∀ c, m.isDropped (m.run c).2 = m.isDropped c

/-- `RecycleConnection`: a dropped connection is stopped, reset, initialized
and run again, whatever each of them answers. -/
def recycleConnection (c : C) : C :=
  if !m.isDropped c then c
  else (m.run (m.init (m.reset (m.stop c).2)).2).2

variable {m}

/-- A recycled connection is neither dropped nor ready. -/
theorem Lawful.recycleConnection (hl : m.Lawful) {c : C} (hd : m.isDropped c = true) :
    m.isDropped (m.recycleConnection c) = false ∧ m.isReady (m.recycleConnection c) = false := by
  simp only [ConnectionMethods.recycleConnection, hd, Bool.not_true, Bool.false_eq_true, if_false]
  rw [hl.isDropped_run, hl.isDropped_init, hl.isDropped_reset, hl.isReady_run, hl.isReady_init,
    hl.isReady_reset]
  exact ⟨rfl, rfl⟩

end ConnectionMethods

/-- The model's `HttpConnection` behind the pool, with its address. `Init`
answers what `initResult` gives the address (the TLS context and the io
service may fail it). `Stop`, which `World` follows event by event, is what
the pool sees of it once it returned. -/
def httpConnectionMethods (initResult : Nat → ExecutionResult)
    (stop : HttpConnection → ExecutionResult × HttpConnection) :
    ConnectionMethods (Nat × HttpConnection) where
  createHttpConnection address _ _ _ := (address, ⟨false, false, false, [], ∅⟩)
  init c := (initResult c.1, (c.1, c.2.init))
  run c := (successExecutionResult, (c.1, c.2.run))
  stop c := ((stop c.2).1, (c.1, (stop c.2).2))
  reset c := (c.1, c.2.reset)
  isReady c := c.2.isReady
  isDropped c := c.2.isDropped

theorem httpConnectionMethods_lawful (initResult : Nat → ExecutionResult)
    (stop : HttpConnection → ExecutionResult × HttpConnection) :
    (httpConnectionMethods initResult stop).Lawful where
  isReady_reset _ := rfl
  isDropped_reset _ := rfl
  isReady_init _ := rfl
  isDropped_init _ := rfl
  isReady_run _ := rfl
  isDropped_run _ := rfl

/-- A connection that the pool created, initialized and ran is the connection
`World` starts from. -/
theorem httpConnectionMethods_created (initResult : Nat → ExecutionResult)
    (stop : HttpConnection → ExecutionResult × HttpConnection) (address : Nat)
    (host service : List Char) (isHttps : Bool) :
    let m := httpConnectionMethods initResult stop
    (m.run (m.init (m.createHttpConnection address host service isHttps)).2).2.2 =
      World.initial.connection := rfl

/-- `HttpConnectionPoolEntry`. -/
structure HttpConnectionPoolEntry (C : Type) where
  httpConnections : List C
  isInitialized : Bool
  orderCounter : UInt64

/-- `HttpConnectionPool`, with the count of the connections it allocated. -/
structure HttpConnectionPool (C : Type) where
  maxConnectionsPerHost : Nat
  connections : ConcurrentMap (List Char) (HttpConnectionPoolEntry C)
  isRunning : Bool
  allocated : Nat

/-- What `host_service_from_uri` reads from a URI. -/
structure HostService where
  scheme : List Char
  host : List Char
  service : List Char

/-- The key of a host's entry, `host + ":" + service`. -/
def HostService.key (hostService : HostService) : List Char :=
  hostService.host ++ [':'] ++ hostService.service

namespace HttpConnectionPool

variable {C : Type} (m : ConnectionMethods C)

/-- The constructor: not running, and no entry. -/
def new (maxConnectionsPerHost : Nat) : HttpConnectionPool C :=
  ⟨maxConnectionsPerHost, ∅, false, 0⟩

/-- `Run`. -/
def run (pool : HttpConnectionPool C) : HttpConnectionPool C := { pool with isRunning := true }

/-- `is_https` from the scheme in lower case; a scheme that is neither tag is
an invalid URI. -/
def isHttpsOf (scheme : List Char) : Option Bool :=
  let lower := scheme.map Char.toLower
  if lower = kHttpsTag then some true
  else if lower = kHttpTag then some false
  else none

/-- The loop of `GetConnection` that fills a new entry: `n` connections still
to create, the next at `address`, after those `created`. A connection that
fails `Init` or `Run` is popped and the call answers its result; the
connections created before it are stopped and go with the entry. -/
def createConnections (host service : List Char) (isHttps : Bool) :
    Nat → Nat → List C → Except ExecutionResult (List C)
  | 0, _, created => .ok created
  | n + 1, address, created =>
    let initialized := m.init (m.createHttpConnection address host service isHttps)
    if !initialized.1.successful then .error initialized.1
    else
      let running := m.run initialized.2
      if !running.1.successful then .error running.1
      else createConnections host service isHttps n (address + 1) (created ++ [running.2])

/-- The entry of a host: `Insert` of a new entry, which the call then fills,
or the entry already in the map, which `Insert` hands back. -/
def obtainEntry (pool : HttpConnectionPool C) (hostService : HostService) (isHttps : Bool) :
    HttpConnectionPool C × Except ExecutionResult (HttpConnectionPoolEntry C) :=
  let fresh : HttpConnectionPoolEntry C := ⟨[], false, 0⟩
  let key := hostService.key
  match pool.connections.insert key fresh with
  | .ok inserted =>
    let allocated := pool.allocated + pool.maxConnectionsPerHost
    match createConnections m hostService.host hostService.service isHttps
        pool.maxConnectionsPerHost pool.allocated [] with
    | .error r => ({ pool with connections := AList.erase key inserted, allocated }, .error r)
    | .ok httpConnections =>
      let entry := { fresh with httpConnections, isInitialized := true }
      ({ pool with connections := AList.insert key entry inserted, allocated }, .ok entry)
  | .error _ => (pool, .ok ((pool.connections.find key).getD fresh))

/-- The loop that looks for a ready connection after a recycle: `n` more
looks, from `curIndex` on, one step modulo `max_connections_per_host_` at a
time. -/
def pickReady (httpConnections : List C) (maxConnectionsPerHost : Nat) :
    Nat → Nat → Option Nat
  | 0, _ => none
  | n + 1, curIndex =>
    if httpConnections[curIndex]?.any m.isReady then some curIndex
    else pickReady httpConnections maxConnectionsPerHost n ((curIndex + 1) % maxConnectionsPerHost)

/-- `GetConnection` once it holds an initialized entry: the turn on the
counter, and a dropped connection recycled in place. -/
def pick (pool : HttpConnectionPool C) (key : List Char) (entry : HttpConnectionPoolEntry C) :
    Option (HttpConnectionPool C × Except ExecutionResult Nat) :=
  let value := entry.orderCounter
  let connectionsIndex := value.toNat % pool.maxConnectionsPerHost
  let counted := { entry with orderCounter := value + 1 }
  match entry.httpConnections[connectionsIndex]? with
  | none => none
  | some connection =>
    if !m.isDropped connection then
      some ({ pool with connections := AList.insert key counted pool.connections },
        .ok connectionsIndex)
    else
      let recycled := m.recycleConnection connection
      let httpConnections := entry.httpConnections.set connectionsIndex recycled
      let pool' := { pool with
        connections := AList.insert key { counted with httpConnections } pool.connections }
      if m.isReady recycled then some (pool', .ok connectionsIndex)
      else
        match pickReady m httpConnections pool.maxConnectionsPerHost httpConnections.length
            connectionsIndex with
        | some index => some (pool', .ok index)
        -- the connection is still the recycled one, which is not ready
        | none => some (pool', .error (retryExecutionResult scHttp2ClientHttpConnectionNotReady))

/-- `GetConnection`: the pool after the call, and a failure or the index of
the connection handed out in the entry of the URI's host; `none` when the
process terminates. -/
def getConnection (pool : HttpConnectionPool C) (uri : Option HostService) :
    Option (HttpConnectionPool C × Except ExecutionResult Nat) :=
  if !pool.isRunning then
    some (pool, .error (failureExecutionResult scHttp2ClientConnectionPoolIsNotAvailable))
  else
    match uri with
    | none => some (pool, .error (failureExecutionResult scHttp2ClientInvalidUri))
    | some hostService =>
      match isHttpsOf hostService.scheme with
      | none => some (pool, .error (failureExecutionResult scHttp2ClientInvalidUri))
      | some isHttps =>
        match obtainEntry m pool hostService isHttps with
        | (pool', .error r) => some (pool', .error r)
        | (pool', .ok entry) =>
          if !entry.isInitialized then
            some (pool', .error (retryExecutionResult scHttp2ClientNoConnectionEstablished))
          else pick m pool' hostService.key entry

/-- The inner loop of `Stop`: the connections of one entry in order, until one
fails to stop. -/
def stopConnections : List C → List C × ExecutionResult
  | [] => ([], successExecutionResult)
  | c :: rest =>
    let stopped := m.stop c
    if !stopped.1.successful then (stopped.2 :: rest, stopped.1)
    else
      let stoppedRest := stopConnections rest
      (stopped.2 :: stoppedRest.1, stoppedRest.2)

/-- The outer loop of `Stop`, over the keys it read. -/
def stopEntries (connections : ConcurrentMap (List Char) (HttpConnectionPoolEntry C)) :
    List (List Char) → ConcurrentMap (List Char) (HttpConnectionPoolEntry C) × ExecutionResult
  | [] => (connections, successExecutionResult)
  | key :: keys =>
    match connections.find key with
    | none => (connections, failureExecutionResult scConcurrentMapEntryDoesNotExist)
    | some entry =>
      let stopped := stopConnections m entry.httpConnections
      let connections' :=
        AList.insert key { entry with httpConnections := stopped.1 } connections
      if !stopped.2.successful then (connections', stopped.2)
      else stopEntries connections' keys

/-- `Stop`: the pool stops running, and stops every connection of every entry
until one fails. -/
def stop (pool : HttpConnectionPool C) : HttpConnectionPool C × ExecutionResult :=
  let stopped := stopEntries m pool.connections pool.connections.keys
  ({ pool with isRunning := false, connections := stopped.1 }, stopped.2)

/-! ### What each call does -/

section Create

variable {m} (host service : List Char) (isHttps : Bool)

/-- A fill that succeeds creates every connection it had still to create. -/
theorem length_of_createConnections_eq_ok : ∀ {n address : Nat} {created conns : List C},
    createConnections m host service isHttps n address created = .ok conns →
      conns.length = created.length + n := by
  intro n
  induction n with
  | zero =>
    intro address created conns h
    cases h
    rfl
  | succ n ih =>
    intro address created conns h
    simp only [createConnections] at h
    split at h
    · cases h
    · split at h
      · cases h
      · rw [ih h, List.length_append, List.length_singleton]
        omega

/-- A fill fails with the result of an `Init` or a `Run` that was not a
success. -/
theorem successful_of_createConnections_eq_error : ∀ {n address : Nat} {created : List C}
    {r : ExecutionResult},
    createConnections m host service isHttps n address created = .error r → r.successful = false := by
  intro n
  induction n with
  | zero =>
    intro address created r h
    cases h
  | succ n ih =>
    intro address created r h
    simp only [createConnections] at h
    split at h
    · rename_i hinit
      cases h
      simpa using hinit
    · split at h
      · rename_i hrun
        cases h
        simpa using hrun
      · exact ih h

end Create

section ObtainEntry

variable {m} {pool : HttpConnectionPool C} {hostService : HostService} {isHttps : Bool}

/-- A host with an entry gets the entry, and the pool stays as it is. -/
theorem obtainEntry_of_lookup {entry : HttpConnectionPoolEntry C}
    (h : pool.connections.lookup hostService.key = some entry) :
    obtainEntry m pool hostService isHttps = (pool, .ok entry) := by
  have hmem : hostService.key ∈ pool.connections := AList.lookup_isSome.mp (by rw [h]; rfl)
  simp [obtainEntry, ConcurrentMap.insert, hmem, ConcurrentMap.find, h]

/-- A host without an entry gets a full one, or the pool keeps its entries and
the call answers the failure. -/
theorem obtainEntry_of_not_mem (h : hostService.key ∉ pool.connections) :
    obtainEntry m pool hostService isHttps =
      match createConnections m hostService.host hostService.service isHttps
          pool.maxConnectionsPerHost pool.allocated [] with
      | .error r =>
        ({ pool with allocated := pool.allocated + pool.maxConnectionsPerHost }, .error r)
      | .ok httpConnections =>
        ({ pool with
            connections := AList.insert hostService.key ⟨httpConnections, true, 0⟩ pool.connections
            allocated := pool.allocated + pool.maxConnectionsPerHost },
          .ok ⟨httpConnections, true, 0⟩) := by
  have hins := ConcurrentMap.insert_of_not_mem (⟨[], false, 0⟩ : HttpConnectionPoolEntry C) h
  simp only [obtainEntry, hins]
  split
  · rw [ConcurrentMap.erase_of_insert_ok hins]
  · rw [AList.insert_insert]

end ObtainEntry

section Pick

variable {m}

/-- The scan after a recycle looks at the turns from the recycled connection
on, and stops at the first ready one. -/
theorem pickReady_eq_find (httpConnections : List C) (k : Nat) :
    ∀ (n c : Nat), pickReady m httpConnections k n (c % k) =
      (turns k c n).find? fun index => httpConnections[index]?.any m.isReady := by
  intro n
  induction n with
  | zero => intro c; rfl
  | succ n ih =>
    intro c
    rw [pickReady, turns_succ, List.find?_cons, Nat.mod_add_mod, ih (c + 1)]
    cases httpConnections[c % k]?.any m.isReady <;> rfl

/-- The scan hands out only a ready connection. -/
theorem any_isReady_of_pickReady {httpConnections : List C} {k : Nat} :
    ∀ {n curIndex index : Nat}, pickReady m httpConnections k n curIndex = some index →
      httpConnections[index]?.any m.isReady = true := by
  intro n
  induction n with
  | zero =>
    intro curIndex index h
    cases h
  | succ n ih =>
    intro curIndex index h
    rw [pickReady] at h
    split at h
    · rename_i hready
      cases h
      exact hready
    · exact ih h

variable {pool pool' : HttpConnectionPool C} {key : List Char} {entry : HttpConnectionPoolEntry C}
  {answer : Except ExecutionResult Nat}

/-- What `pick` may do: write the entry back with the counter one up and as
many connections, and hand out a connection that is not dropped or is ready. -/
theorem pick_eq_some (h : pick m pool key entry = some (pool', answer)) :
    ∃ entry' : HttpConnectionPoolEntry C,
      pool' = { pool with connections := AList.insert key entry' pool.connections } ∧
      entry'.isInitialized = entry.isInitialized ∧
      entry'.httpConnections.length = entry.httpConnections.length ∧
      ∀ index, answer = .ok index → ∃ connection,
        entry'.httpConnections[index]? = some connection ∧
          (m.isDropped connection = false ∨ m.isReady connection = true) := by
  unfold pick at h
  dsimp only at h
  split at h
  · cases h
  · rename_i connection hconn
    split at h
    · -- not dropped: only the counter moves
      rename_i hd
      cases h
      refine ⟨_, rfl, rfl, rfl, ?_⟩
      rintro index ⟨⟩
      exact ⟨connection, hconn, .inl (by simpa using hd)⟩
    · -- dropped: recycled in place
      have hlt := (List.getElem?_eq_some_iff.mp hconn).1
      have hset := List.getElem?_set_self (a := m.recycleConnection connection) hlt
      split at h
      · rename_i hready
        cases h
        refine ⟨_, rfl, rfl, List.length_set, ?_⟩
        rintro index ⟨⟩
        exact ⟨_, hset, .inr hready⟩
      · split at h
        · rename_i index hpick
          cases h
          refine ⟨_, rfl, rfl, List.length_set, ?_⟩
          rintro index' ⟨⟩
          obtain ⟨connection', hc, hr⟩ := (Option.any_eq_true _ _).mp (any_isReady_of_pickReady hpick)
          exact ⟨connection', hc, .inr hr⟩
        · cases h
          refine ⟨_, rfl, rfl, List.length_set, ?_⟩
          rintro index ⟨⟩

/-- `pick` terminates the process only when the turn is past the entry. -/
theorem pick_isSome
    (h : entry.orderCounter.toNat % pool.maxConnectionsPerHost < entry.httpConnections.length) :
    (pick m pool key entry).isSome := by
  unfold pick
  dsimp only
  split
  · rename_i hnone
    rw [List.getElem?_eq_none_iff] at hnone
    omega
  · split
    · rfl
    · split
      · rfl
      · split <;> rfl

/-- A turn on a connection that is not dropped hands it out, and moves the
counter. -/
theorem pick_of_not_dropped {connection : C}
    (hconn : entry.httpConnections[entry.orderCounter.toNat % pool.maxConnectionsPerHost]? =
      some connection)
    (hd : m.isDropped connection = false) :
    pick m pool key entry =
      some ({ pool with
          connections := AList.insert key { entry with orderCounter := entry.orderCounter + 1 }
            pool.connections },
        .ok (entry.orderCounter.toNat % pool.maxConnectionsPerHost)) := by
  simp [pick, hconn, hd]

/-- A turn on a dropped connection recycles it, and then scans for a ready
one from it on. -/
theorem pick_of_dropped (hl : m.Lawful) {connection : C}
    (hconn : entry.httpConnections[entry.orderCounter.toNat % pool.maxConnectionsPerHost]? =
      some connection)
    (hd : m.isDropped connection = true) :
    (pick m pool key entry).map Prod.snd =
      some (match pickReady m (entry.httpConnections.set
            (entry.orderCounter.toNat % pool.maxConnectionsPerHost) (m.recycleConnection connection))
          pool.maxConnectionsPerHost entry.httpConnections.length
          (entry.orderCounter.toNat % pool.maxConnectionsPerHost) with
        | some index => .ok index
        | none => .error (retryExecutionResult scHttp2ClientHttpConnectionNotReady)) := by
  have hready := (hl.recycleConnection hd).2
  simp only [pick, hconn, hd, hready, Bool.not_true, Bool.false_eq_true, if_false,
    List.length_set]
  split <;> rfl

end Pick

/-! ### Full entries -/

/-- Every entry of the map is initialized and holds `k` connections. -/
def EntriesFull (k : Nat) (connections : ConcurrentMap (List Char) (HttpConnectionPoolEntry C)) :
    Prop :=
  ∀ key entry, connections.lookup key = some entry →
    entry.isInitialized = true ∧ entry.httpConnections.length = k

theorem entriesFull_empty (k : Nat) :
    EntriesFull k (∅ : ConcurrentMap (List Char) (HttpConnectionPoolEntry C)) := by
  intro key entry h
  simp at h

theorem EntriesFull.insert {k : Nat} {connections : ConcurrentMap (List Char) (HttpConnectionPoolEntry C)}
    (h : EntriesFull k connections) {key : List Char} {entry : HttpConnectionPoolEntry C}
    (hinit : entry.isInitialized = true) (hlen : entry.httpConnections.length = k) :
    EntriesFull k (AList.insert key entry connections) := by
  intro key' entry' h'
  by_cases hk : key' = key
  · subst hk
    rw [AList.lookup_insert] at h'
    cases h'
    exact ⟨hinit, hlen⟩
  · rw [AList.lookup_insert_ne hk] at h'
    exact h key' entry' h'

section GetConnection

variable {m} {pool pool' pool₁ : HttpConnectionPool C} {hostService : HostService} {isHttps : Bool}
  {uri : Option HostService} {answer : Except ExecutionResult Nat}

/-- The entry a call obtains is the one the map then holds for the host, and
full entries stay full. -/
theorem obtainEntry_spec {result : Except ExecutionResult (HttpConnectionPoolEntry C)}
    (h : obtainEntry m pool hostService isHttps = (pool₁, result)) :
    pool₁.maxConnectionsPerHost = pool.maxConnectionsPerHost ∧ pool₁.isRunning = pool.isRunning ∧
      (EntriesFull pool.maxConnectionsPerHost pool.connections →
        EntriesFull pool.maxConnectionsPerHost pool₁.connections) ∧
      ∀ entry, result = .ok entry → pool₁.connections.lookup hostService.key = some entry := by
  by_cases hmem : hostService.key ∈ pool.connections
  · obtain ⟨entry, hentry⟩ := Option.isSome_iff_exists.mp (AList.lookup_isSome.mpr hmem)
    rw [obtainEntry_of_lookup hentry] at h
    cases h
    refine ⟨rfl, rfl, id, ?_⟩
    rintro entry' ⟨⟩
    exact hentry
  · rw [obtainEntry_of_not_mem hmem] at h
    split at h
    · cases h
      refine ⟨rfl, rfl, id, ?_⟩
      rintro entry' ⟨⟩
    · rename_i httpConnections hcreate
      cases h
      have hlen := length_of_createConnections_eq_ok _ _ _ hcreate
      refine ⟨rfl, rfl, fun hfull => hfull.insert rfl (by simpa using hlen), ?_⟩
      rintro entry' ⟨⟩
      exact AList.lookup_insert _

/-- A call keeps the maximum and whether the pool runs, and full entries stay
full. -/
theorem getConnection_spec (h : getConnection m pool uri = some (pool', answer)) :
    pool'.maxConnectionsPerHost = pool.maxConnectionsPerHost ∧ pool'.isRunning = pool.isRunning ∧
      (EntriesFull pool.maxConnectionsPerHost pool.connections →
        EntriesFull pool.maxConnectionsPerHost pool'.connections) := by
  unfold getConnection at h
  split at h
  · cases h
    exact ⟨rfl, rfl, id⟩
  split at h
  · cases h
    exact ⟨rfl, rfl, id⟩
  rename_i hostService
  split at h
  · cases h
    exact ⟨rfl, rfl, id⟩
  rename_i isHttps hscheme
  split at h
  · rename_i pool₁ r hobtain
    cases h
    obtain ⟨hmax, hrun, hfull, -⟩ := obtainEntry_spec hobtain
    exact ⟨hmax, hrun, hfull⟩
  · rename_i pool₁ entry hobtain
    obtain ⟨hmax, hrun, hfull, hlookup⟩ := obtainEntry_spec hobtain
    split at h
    · cases h
      exact ⟨hmax, hrun, hfull⟩
    · obtain ⟨entry', rfl, hinit, hlen, -⟩ := pick_eq_some h
      refine ⟨hmax, hrun, fun hfull₀ => ?_⟩
      have hentry := hfull hfull₀ _ _ (hlookup entry rfl)
      exact (hfull hfull₀).insert (hinit.trans hentry.1) (hlen.trans hentry.2)

/-- A connection is handed out only by `pick`, on the entry of the URI's host. -/
theorem getConnection_eq_ok {index : Nat} (h : getConnection m pool uri = some (pool', .ok index)) :
    ∃ hostService isHttps pool₁ entry, uri = some hostService ∧
      obtainEntry m pool hostService isHttps = (pool₁, .ok entry) ∧
      pick m pool₁ hostService.key entry = some (pool', .ok index) := by
  unfold getConnection at h
  split at h
  · cases h
  split at h
  · cases h
  rename_i hostService
  split at h
  · cases h
  rename_i isHttps hscheme
  split at h
  · cases h
  · rename_i pool₁ entry hobtain
    split at h
    · cases h
    · exact ⟨hostService, isHttps, pool₁, entry, rfl, hobtain, h⟩

/-- With full entries and a positive maximum, `GetConnection` never
terminates the process. -/
theorem getConnection_isSome (hpos : 0 < pool.maxConnectionsPerHost)
    (hfull : EntriesFull pool.maxConnectionsPerHost pool.connections) :
    (getConnection m pool uri).isSome := by
  unfold getConnection
  split
  · rfl
  split
  · rfl
  rename_i hostService
  split
  · rfl
  rename_i isHttps hscheme
  split
  · rfl
  · rename_i pool₁ entry hobtain
    obtain ⟨hmax, -, hfull₁, hlookup⟩ := obtainEntry_spec hobtain
    have hentry := hfull₁ hfull _ _ (hlookup entry rfl)
    split
    · rfl
    · apply pick_isSome
      rw [hentry.2, ← hmax]
      exact Nat.mod_lt _ (hmax ▸ hpos)

end GetConnection

/-! ### A dropped turn, and a failed fill -/

/-- The answer a scan for a ready connection should give: the first
connection that `ready` accepts in turn order from the reading `c`, or a
retry when it accepts none. -/
def firstReadyAnswer (ready : Nat → Bool) (k c : Nat) : Except ExecutionResult Nat :=
  match (turns k c k).find? ready with
  | some index => .ok index
  | none => .error (retryExecutionResult scHttp2ClientHttpConnectionNotReady)

section FirstReady

variable {ready : Nat → Bool} {k c : Nat}

/-- The connection handed out is ready, and every connection before it in
turn order is not. -/
theorem firstReadyAnswer_eq_ok {index : Nat} (h : firstReadyAnswer ready k c = .ok index) :
    ready index = true ∧ index < k ∧
      ∃ before after, turns k c k = before ++ index :: after ∧ ∀ j ∈ before, ready j = false := by
  unfold firstReadyAnswer at h
  split at h
  · rename_i index' hfind
    cases h
    obtain ⟨hready, before, after, hturns, hbefore⟩ := List.find?_eq_some_iff_append.mp hfind
    refine ⟨hready, mem_turns.mp (hturns ▸ List.mem_append_right _ List.mem_cons_self),
      before, after, hturns, fun j hj => by simpa using hbefore j hj⟩
  · cases h

/-- The scan answers a retry exactly when no connection is ready. -/
theorem firstReadyAnswer_eq_error_iff :
    (∃ r, firstReadyAnswer ready k c = .error r) ↔ ∀ index < k, ready index = false := by
  unfold firstReadyAnswer
  split
  · rename_i index hfind
    have hready := List.find?_some hfind
    have hlt := mem_turns.mp (List.mem_of_find?_eq_some hfind)
    simp only [reduceCtorEq, exists_false, false_iff, not_forall]
    exact ⟨index, hlt, by simp [hready]⟩
  · rename_i hfind
    have hnone := List.find?_eq_none.mp hfind
    refine ⟨fun _ index hlt => by simpa using hnone index (mem_turns.mpr hlt), fun _ => ⟨_, rfl⟩⟩

end FirstReady

section Recycle

variable {m} {pool : HttpConnectionPool C} {hostService : HostService}
  {entry : HttpConnectionPoolEntry C}

/-- When the turn falls on a dropped connection, `GetConnection` recycles it
and answers what the scan from it should: the first ready connection in turn
order, the recycled one first, or `SC_HTTP2_CLIENT_HTTP_CONNECTION_NOT_READY`
when none is ready. -/
theorem getConnection_scans_after_recycle (hl : m.Lawful) {connection : C}
    (hrun : pool.isRunning = true) (hscheme : (isHttpsOf hostService.scheme).isSome)
    (hfull : EntriesFull pool.maxConnectionsPerHost pool.connections)
    (hentry : pool.connections.lookup hostService.key = some entry)
    (hconn : entry.httpConnections[entry.orderCounter.toNat % pool.maxConnectionsPerHost]? =
      some connection)
    (hd : m.isDropped connection = true) :
    (getConnection m pool (some hostService)).map Prod.snd =
      some (firstReadyAnswer (fun index =>
          (entry.httpConnections.set (entry.orderCounter.toNat % pool.maxConnectionsPerHost)
            (m.recycleConnection connection))[index]?.any m.isReady)
        pool.maxConnectionsPerHost entry.orderCounter.toNat) := by
  obtain ⟨isHttps, hhttps⟩ := Option.isSome_iff_exists.mp hscheme
  obtain ⟨hinit, hlen⟩ := hfull _ _ hentry
  have hget : getConnection m pool (some hostService) = pick m pool hostService.key entry := by
    simp [getConnection, hrun, hhttps, obtainEntry_of_lookup hentry, hinit]
  rw [hget, pick_of_dropped hl hconn hd, hlen, pickReady_eq_find, firstReadyAnswer]

/-- Connection 1 has dropped and its turn has come; connection 0 is ready:
the call recycles 1 and hands out 0. -/
theorem getConnection_scans_after_recycle_to_ready :
    let m := httpConnectionMethods (fun _ => successExecutionResult)
      (fun c => (successExecutionResult, c.stopPosts))
    let dropped : Nat × HttpConnection := (1, ⟨false, true, true, [], ∅⟩)
    let entry : HttpConnectionPoolEntry (Nat × HttpConnection) :=
      ⟨[(0, ⟨true, false, true, [], ∅⟩), dropped], true, 1⟩
    let hostService : HostService := ⟨"HTTPS".toList, "example.com".toList, "443".toList⟩
    let pool : HttpConnectionPool (Nat × HttpConnection) :=
      ⟨2, AList.insert hostService.key entry ∅, true, 2⟩
    m.isDropped dropped = true ∧
      (getConnection m pool (some hostService)).map Prod.snd =
        some (firstReadyAnswer (fun index =>
            (entry.httpConnections.set (entry.orderCounter.toNat % pool.maxConnectionsPerHost)
              (m.recycleConnection dropped))[index]?.any m.isReady)
          pool.maxConnectionsPerHost entry.orderCounter.toNat) := by
  intro m dropped entry hostService pool
  exact ⟨rfl, getConnection_scans_after_recycle (httpConnectionMethods_lawful _ _) rfl rfl
    ((entriesFull_empty 2).insert rfl rfl) (AList.lookup_insert _) rfl rfl⟩

/-- The first call for a host whose fill fails answers the failure, which is
not a success, and leaves the map of entries as it was. -/
theorem getConnection_rolls_back {isHttps : Bool} {r : ExecutionResult}
    (hrun : pool.isRunning = true) (hscheme : isHttpsOf hostService.scheme = some isHttps)
    (hnew : hostService.key ∉ pool.connections)
    (hcreate : createConnections m hostService.host hostService.service isHttps
      pool.maxConnectionsPerHost pool.allocated [] = .error r) :
    ∃ pool', getConnection m pool (some hostService) = some (pool', .error r) ∧
      pool'.connections = pool.connections ∧ pool'.isRunning = true ∧ r.successful = false := by
  refine ⟨{ pool with allocated := pool.allocated + pool.maxConnectionsPerHost }, ?_, rfl, hrun,
    successful_of_createConnections_eq_error _ _ _ hcreate⟩
  simp [getConnection, hrun, hscheme, obtainEntry_of_not_mem hnew, hcreate]

/-- The second connection of a new entry fails its TLS context: the call
answers that failure and the pool has no entry for the host. -/
theorem getConnection_rolls_back_second_init :
    let m := httpConnectionMethods
      (fun address => if address = 1 then failureExecutionResult scHttp2ClientTlsCtxError
        else successExecutionResult)
      (fun c => (successExecutionResult, c.stopPosts))
    let hostService : HostService := ⟨"HTTPS".toList, "example.com".toList, "443".toList⟩
    let pool : HttpConnectionPool (Nat × HttpConnection) := (HttpConnectionPool.new 2).run
    createConnections m hostService.host hostService.service true 2 0 [] =
        .error (failureExecutionResult scHttp2ClientTlsCtxError) ∧
      ∃ pool', getConnection m pool (some hostService) =
          some (pool', .error (failureExecutionResult scHttp2ClientTlsCtxError)) ∧
        pool'.connections = pool.connections ∧ pool'.isRunning = true ∧
        (failureExecutionResult scHttp2ClientTlsCtxError).successful = false := by
  intro m hostService pool
  exact ⟨rfl, getConnection_rolls_back rfl rfl (AList.notMem_empty _) rfl⟩

end Recycle

/-! ### `Stop` -/

section Stop

variable {m}

theorem length_stopConnections : ∀ connections : List C,
    (stopConnections m connections).1.length = connections.length
  | [] => rfl
  | c :: rest => by
    unfold stopConnections
    dsimp only
    split
    · rfl
    · simp [length_stopConnections rest]

/-- A `Stop` of an entry that answers success stopped each connection once,
in order. -/
theorem stopConnections_of_successful : ∀ {connections : List C},
    (stopConnections m connections).2.successful = true →
      (stopConnections m connections).1 = connections.map fun c => (m.stop c).2
  | [], _ => rfl
  | c :: rest, h => by
    unfold stopConnections at h ⊢
    dsimp only at h ⊢
    split
    · rename_i hfail
      -- the answer is the failed stop's own
      rw [if_pos hfail] at h
      simp_all
    · rename_i hok
      rw [if_neg hok] at h
      rw [List.map_cons, stopConnections_of_successful h]

/-- The loop over the keys, when it answers success, has stopped the entries
of the keys it read, each once, and left the others. -/
theorem stopEntries_of_successful : ∀ {keys : List (List Char)}
    {connections : ConcurrentMap (List Char) (HttpConnectionPoolEntry C)}, keys.Nodup →
    (stopEntries m connections keys).2.successful = true → ∀ key,
      (stopEntries m connections keys).1.lookup key =
        (connections.lookup key).map fun entry =>
          if key ∈ keys then
            { entry with httpConnections := entry.httpConnections.map fun c => (m.stop c).2 }
          else entry
  | [], connections, _, _, key => by
    simp [stopEntries]
  | key₀ :: keys, connections, hnodup, h, key => by
    obtain ⟨hkey₀, hnodup⟩ := List.nodup_cons.mp hnodup
    unfold stopEntries at h ⊢
    split at h
    · simp at h
    · rename_i entry hfind
      dsimp only at h ⊢
      split at h
      · rename_i hfail
        simp_all
      · rename_i hok
        rw [if_neg hok, stopEntries_of_successful hnodup h key]
        have hstopped := @stopConnections_of_successful C m entry.httpConnections
          (by simpa using hok)
        by_cases hk : key = key₀
        · subst hk
          rw [AList.lookup_insert, ← ConcurrentMap.find, hfind]
          simp [hkey₀, hstopped]
        · rw [AList.lookup_insert_ne hk]
          simp [hk]

/-- A `Stop` that answers success has stopped every connection of every entry
once, and the pool no longer runs. -/
theorem stop_stops_every_connection {pool : HttpConnectionPool C}
    (h : (stop m pool).2.successful = true) :
    (stop m pool).1.isRunning = false ∧ ∀ key,
      (stop m pool).1.connections.lookup key = (pool.connections.lookup key).map fun entry =>
        { entry with httpConnections := entry.httpConnections.map fun c => (m.stop c).2 } := by
  refine ⟨rfl, fun key => ?_⟩
  have hkeys := stopEntries_of_successful pool.connections.keys_nodup h key
  simp only [stop]
  rw [hkeys]
  cases hlookup : pool.connections.lookup key with
  | none => rfl
  | some entry =>
    have hmem : key ∈ pool.connections.keys :=
      AList.mem_keys.mpr (AList.lookup_isSome.mp (by rw [hlookup]; rfl))
    simp [hmem]

/-- A pool with one entry of two connections stops both. -/
theorem stop_stops_every_connection_one_entry :
    let m := httpConnectionMethods (fun _ => successExecutionResult)
      (fun c => (successExecutionResult, c.stopPosts))
    let pool : HttpConnectionPool (Nat × HttpConnection) :=
      ⟨2, AList.insert ("example.com".toList ++ [':'] ++ "443".toList)
        ⟨[(0, ⟨true, false, true, [], ∅⟩), (1, ⟨false, false, true, [], ∅⟩)], true, 1⟩ ∅, true, 2⟩
    (stop m pool).2.successful = true ∧
      (stop m pool).1.isRunning = false ∧ ∀ key,
        (stop m pool).1.connections.lookup key = (pool.connections.lookup key).map fun entry =>
          { entry with httpConnections := entry.httpConnections.map fun c => (m.stop c).2 } := by
  intro m pool
  have h : (stop m pool).2.successful = true := by decide
  exact ⟨h, stop_stops_every_connection h⟩

theorem EntriesFull.stopEntries {k : Nat} : ∀ {keys : List (List Char)}
    {connections : ConcurrentMap (List Char) (HttpConnectionPoolEntry C)},
    EntriesFull k connections → EntriesFull k (HttpConnectionPool.stopEntries m connections keys).1
  | [], _, h => h
  | key :: keys, connections, h => by
    unfold HttpConnectionPool.stopEntries
    split
    · exact h
    · rename_i entry hfind
      have hentry := h key entry hfind
      have hlen : (stopConnections m entry.httpConnections).1.length = k := by
        rw [length_stopConnections]
        exact hentry.2
      dsimp only
      split
      · exact h.insert hentry.1 hlen
      · exact EntriesFull.stopEntries (h.insert hentry.1 hlen)

end Stop

end HttpConnectionPool

/-- The calls into the pool, and what the threads of its connections do. -/
inductive PoolEvent (C : Type) where
  | run
  | stop
  | getConnection (uri : Option HostService)
  /-- The threads of connection `index` of the entry at `key` leave it as
  `connection`. -/
  | connectionThreads (key : List Char) (index : Nat) (connection : C)

/-- The pool, what each `GetConnection` answered, and whether one terminated
the process. -/
structure PoolWorld (C : Type) where
  pool : HttpConnectionPool C
  answers : List (Except ExecutionResult Nat)
  terminated : Bool

namespace PoolWorld

variable {C : Type} (m : ConnectionMethods C)

/-- A new pool, before any call. -/
def initial (maxConnectionsPerHost : Nat) : PoolWorld C :=
  ⟨HttpConnectionPool.new maxConnectionsPerHost, [], false⟩

/-- The threads of a connection change it in its entry. -/
def connectionThreads (w : PoolWorld C) (key : List Char) (index : Nat) (connection : C) :
    PoolWorld C :=
  match w.pool.connections.find key with
  | none => w
  | some entry =>
    { w with pool := { w.pool with
        connections := AList.insert key
          { entry with httpConnections := entry.httpConnections.set index connection }
          w.pool.connections } }

def step (w : PoolWorld C) (e : PoolEvent C) : PoolWorld C :=
  if w.terminated then w
  else
    match e with
    | .run => { w with pool := w.pool.run }
    | .stop => { w with pool := (w.pool.stop m).1 }
    | .getConnection uri =>
      match w.pool.getConnection m uri with
      | some (pool, answer) => { w with pool, answers := w.answers ++ [answer] }
      | none => { w with terminated := true }
    | .connectionThreads key index connection => w.connectionThreads key index connection

/-- The world after a sequence of events. -/
def run (w : PoolWorld C) (events : List (PoolEvent C)) : PoolWorld C := events.foldl (step m) w

/-! ### Every run -/

open HttpConnectionPool

variable {m}

/-- What every world reached from a new pool keeps: no call terminated the
process, the maximum is `k`, and every entry is full. -/
structure Inv (k : Nat) (w : PoolWorld C) : Prop where
  terminated : w.terminated = false
  maxConnectionsPerHost : w.pool.maxConnectionsPerHost = k
  full : EntriesFull k w.pool.connections

theorem inv_initial (k : Nat) : (initial k : PoolWorld C).Inv k :=
  ⟨rfl, rfl, entriesFull_empty k⟩

theorem Inv.step {k : Nat} (hk : 0 < k) {w : PoolWorld C} (h : w.Inv k) (e : PoolEvent C) :
    (w.step m e).Inv k := by
  have hnot : ¬ w.terminated = true := by simp [h.terminated]
  cases e with
  | run =>
    simp only [PoolWorld.step, if_neg hnot]
    exact ⟨h.terminated, h.maxConnectionsPerHost, h.full⟩
  | stop =>
    simp only [PoolWorld.step, if_neg hnot]
    exact ⟨h.terminated, h.maxConnectionsPerHost, h.full.stopEntries⟩
  | getConnection uri =>
    have hsome : (getConnection m w.pool uri).isSome :=
      getConnection_isSome (h.maxConnectionsPerHost ▸ hk) (h.maxConnectionsPerHost ▸ h.full)
    obtain ⟨⟨pool', answer⟩, hget⟩ := Option.isSome_iff_exists.mp hsome
    obtain ⟨hmax, -, hfull⟩ := getConnection_spec hget
    simp only [PoolWorld.step, if_neg hnot, hget]
    refine ⟨h.terminated, hmax.trans h.maxConnectionsPerHost, ?_⟩
    have hfull' := hfull (h.maxConnectionsPerHost ▸ h.full)
    rwa [h.maxConnectionsPerHost] at hfull'
  | connectionThreads key index connection =>
    simp only [PoolWorld.step, if_neg hnot, connectionThreads]
    split
    · exact h
    · rename_i entry hfind
      have hentry := h.full key entry hfind
      exact ⟨h.terminated, h.maxConnectionsPerHost,
        h.full.insert hentry.1 (by rw [List.length_set]; exact hentry.2)⟩

theorem inv_run {k : Nat} (hk : 0 < k) (events : List (PoolEvent C)) :
    ((initial k).run m events).Inv k :=
  Simulation.foldl_invariant (step m) (Inv k) (fun _ => True) (fun _ e _ hw => hw.step hk e)
    (fun _ _ => trivial) (inv_initial k)

/-- In every run from a new pool with a positive maximum, no `GetConnection`
terminated the process, and every entry of the map is initialized and holds
`max_connections_per_host_` connections: no call finds an entry that is not
initialized. -/
theorem run_keeps_entries_full (m : ConnectionMethods C) {k : Nat} (hk : 0 < k)
    (events : List (PoolEvent C)) :
    ((initial k).run m events).terminated = false ∧
      EntriesFull k ((initial k).run m events).pool.connections :=
  ⟨(inv_run hk events).terminated, (inv_run hk events).full⟩

/-- Two calls for a host, with a drop between them. -/
theorem run_keeps_entries_full_after_drop :
    let m := httpConnectionMethods (fun _ => successExecutionResult)
      (fun c => (successExecutionResult, c.stopPosts))
    let hostService : HostService := ⟨"HTTPS".toList, "example.com".toList, "443".toList⟩
    let events : List (PoolEvent (Nat × HttpConnection)) :=
      [.run, .getConnection (some hostService),
        .connectionThreads hostService.key 1 (1, ⟨false, true, true, [], ∅⟩),
        .getConnection (some hostService)]
    0 < 2 ∧ ((initial 2).run m events).terminated = false ∧
      EntriesFull 2 ((initial 2).run m events).pool.connections := by
  intro m hostService events
  exact ⟨by decide, run_keeps_entries_full m (by decide) events⟩


/-! ### Taking turns -/

/-- A running pool, not terminated, with an initialized full entry for the
host whose connections are all live. -/
structure LiveHost (m : ConnectionMethods C) (w : PoolWorld C) (hostService : HostService)
    (entry : HttpConnectionPoolEntry C) : Prop where
  terminated : w.terminated = false
  isRunning : w.pool.isRunning = true
  scheme : (isHttpsOf hostService.scheme).isSome
  lookup : w.pool.connections.lookup hostService.key = some entry
  isInitialized : entry.isInitialized = true
  length : entry.httpConnections.length = w.pool.maxConnectionsPerHost
  pos : 0 < w.pool.maxConnectionsPerHost
  live : ∀ c ∈ entry.httpConnections, m.isDropped c = false

section Turns

variable {w : PoolWorld C} {hostService : HostService} {entry : HttpConnectionPoolEntry C}

/-- A call for a live host hands out the turn of the counter, and only moves
the counter. -/
theorem LiveHost.step_eq (h : LiveHost m w hostService entry) :
    w.step m (.getConnection (some hostService)) =
      { w with
        pool := { w.pool with
          connections := AList.insert hostService.key
            { entry with orderCounter := entry.orderCounter + 1 } w.pool.connections }
        answers := w.answers ++
          [.ok (entry.orderCounter.toNat % w.pool.maxConnectionsPerHost)] } := by
  obtain ⟨isHttps, hhttps⟩ := Option.isSome_iff_exists.mp h.scheme
  have hlt : entry.orderCounter.toNat % w.pool.maxConnectionsPerHost <
      entry.httpConnections.length := by
    rw [h.length]
    exact Nat.mod_lt _ h.pos
  have hpick := @pick_of_not_dropped C m w.pool hostService.key entry _
    (List.getElem?_eq_getElem hlt) (h.live _ (List.getElem_mem hlt))
  simp [PoolWorld.step, h.terminated, getConnection, h.isRunning, hhttps,
    obtainEntry_of_lookup h.lookup, h.isInitialized, hpick]

/-- After the call the host is still live, with the counter one up. -/
theorem LiveHost.step (h : LiveHost m w hostService entry) :
    LiveHost m (w.step m (.getConnection (some hostService))) hostService
      { entry with orderCounter := entry.orderCounter + 1 } := by
  rw [h.step_eq]
  exact ⟨h.terminated, h.isRunning, h.scheme, AList.lookup_insert _, h.isInitialized, h.length,
    h.pos, h.live⟩

/-- Calls for a live host take turns on the counter, as long as it does not
wrap. -/
theorem LiveHost.run_eq : ∀ {n : Nat} {w : PoolWorld C} {entry : HttpConnectionPoolEntry C},
    LiveHost m w hostService entry → entry.orderCounter.toNat + n < 2 ^ 64 →
    (w.run m (List.replicate n (.getConnection (some hostService)))).answers =
      w.answers ++ (turns w.pool.maxConnectionsPerHost entry.orderCounter.toNat n).map Except.ok
  | 0, w, _, _, _ => by simp [PoolWorld.run, turns_zero]
  | n + 1, w, entry, h, hwrap => by
    have hcounter : (entry.orderCounter + 1).toNat = entry.orderCounter.toNat + 1 := by
      rw [UInt64.toNat_add, UInt64.toNat_one, Nat.mod_eq_of_lt (by omega)]
    have ih := LiveHost.run_eq (n := n) h.step (by simp only [hcounter]; omega)
    rw [List.replicate_succ, PoolWorld.run, List.foldl_cons, ← PoolWorld.run] at *
    rw [ih, h.step_eq, hcounter, turns_succ]
    simp

/-- Over any `q * k` calls for a host whose `k` connections stay live, each
connection is handed out exactly `q` times. -/
theorem getConnection_takes_turns (h : LiveHost m w hostService entry) {q : Nat}
    (hwrap : entry.orderCounter.toNat + q * w.pool.maxConnectionsPerHost < 2 ^ 64) {i : Nat}
    (hi : i < w.pool.maxConnectionsPerHost) :
    ((w.run m (List.replicate (q * w.pool.maxConnectionsPerHost)
        (.getConnection (some hostService)))).answers.drop w.answers.length).count (.ok i) = q := by
  rw [h.run_eq hwrap, List.drop_left,
    List.count_map_of_injective _ _ (fun _ _ hij => Except.ok.inj hij),
    count_turns_mul _ _ _ hi]

/-- Two live connections: two calls hand out connection 0 once. -/
theorem getConnection_takes_turns_two_calls :
    let m := httpConnectionMethods (fun _ => successExecutionResult)
      (fun c => (successExecutionResult, c.stopPosts))
    let hostService : HostService := ⟨"HTTPS".toList, "example.com".toList, "443".toList⟩
    let entry : HttpConnectionPoolEntry (Nat × HttpConnection) :=
      ⟨[(0, ⟨true, false, true, [], ∅⟩), (1, ⟨false, false, true, [], ∅⟩)], true, 0⟩
    let w : PoolWorld (Nat × HttpConnection) :=
      ⟨⟨2, AList.insert hostService.key entry ∅, true, 2⟩, [], false⟩
    LiveHost m w hostService entry ∧
      ((w.run m (List.replicate (1 * 2) (.getConnection (some hostService)))).answers.drop
        w.answers.length).count (.ok 0) = 1 := by
  intro m hostService entry w
  have h : LiveHost m w hostService entry :=
    ⟨rfl, rfl, rfl, AList.lookup_insert _, rfl, rfl, by decide, by decide⟩
  exact ⟨h, getConnection_takes_turns h (by decide) (by decide)⟩

end Turns

end PoolWorld

end ControlPlane.Http
