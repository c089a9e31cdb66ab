import ControlPlane.PrivateKey.Utils
import Mathlib.Data.List.Sort
import Mathlib.Logic.Relation

/-!
# `PrivateKeyClientProvider::ListPrivateKeys` as a state machine

`ListPrivateKeys` sends one fetch per endpoint, or one per endpoint and key id
when listing by key id, and returns. Each fetch calls back with a list of
encryption keys; the callback sends one KMS decrypt per key, or, for a failed
or empty fetch, calls the decrypt callback itself with a null key. Each
decrypt callback stores its result, and the callback that finds every fetch
returned and every split decrypted builds the keys and finishes the context.
The first failure on the way finishes the context early and sets
`got_failure`, which turns every later callback into a no-op.

The callbacks run one at a time, in any order: a state holds the fetches and
decrypts in flight, and a step delivers any one of them with any outcome.
The counters are `size_t`; they only grow, and the two `- 1` of the completion
test wrap at zero. The state also records every `Finish` of the context and
whether the process has ended, on an exception of a `noexcept` function or on
a null pointer read by a log line.
-/

namespace ControlPlane.PrivateKeyClient

open Core PrivateKeyClientUtils

inductive ListingMethod
  | kByKeyId
  | kByMaxAge
  deriving DecidableEq, Repr

structure ListPrivateKeysRequest where
  keyIds : List String
  maxAgeSeconds : Int
  deriving DecidableEq, Repr

/-- `PrivateKeyFetchingRequest`, with the endpoint as its index: listing by key
id sets the key id, listing by age the age. -/
structure PrivateKeyFetchingRequest where
  uriIndex : Nat
  keyId : Option String
  maxAgeSeconds : Option Int
  deriving DecidableEq, Repr

/-- A decrypt sent and not called back: the encryption key and the index of
the endpoint it came from. -/
structure DecryptCall where
  encryptionKey : EncryptionKey
  uriIndex : Nat
  deriving DecidableEq, Repr

/-- `ListPrivateKeysStatus`; `key_id_set` is an ordered list without repeats. -/
structure ListPrivateKeysStatus where
  resultList : List KeysResultPerEndpoint
  keyIdSet : List String
  listingMethod : ListingMethod
  callCountPerEndpoint : Nat
  totalKeySplitCount : Nat := 0
  finishedKeySplitCount : Nat := 0
  fetchingCallReturnedCount : Nat := 0
  gotFailure : Bool := false

/-- One `Finish` of the listing's context: its result, and its response when
one was made. -/
structure Finish where
  result : ExecutionResult
  response : Option (List PrivateKey)
  deriving DecidableEq, Repr

/-- The listing between two callbacks. -/
structure ListState where
  status : ListPrivateKeysStatus
  fetches : List PrivateKeyFetchingRequest
  decrypts : List DecryptCall
  finishes : List Finish
  crashed : Bool

/-- What the listing reads of the provider and its surroundings: the number of
endpoints (`Init` puts the primary one first), what the fetcher and the KMS
client answer when a call is sent, Tink's reading of single-party key
material, and whether the global logger writes warnings and errors (neither
when no logger is set). -/
structure PrivateKeyClientProvider where
  endpointCount : Nat
  endpointCount_pos : 0 < endpointCount
  fetchPrivateKey : PrivateKeyFetchingRequest → ExecutionResult
  decrypt : DecryptRequest → ExecutionResult
  readKeyset : String → KeysetRead
  logsWarning : Bool
  logsError : Bool

/-- How a loop of a callback stops early: a failure of the listing, or an
exception that ends the process. -/
inductive Stop
  | failure (result : ExecutionResult)
  | crash
  deriving DecidableEq, Repr

/-- How the loop over the key ids ends: the `Finish` it makes, if any, and
whether a log line then reads the null `encryption_key`. -/
structure Completion where
  finish : Option Finish
  crashed : Bool
  deriving DecidableEq, Repr

/-- `std::set<std::string>::insert`. -/
def insertKeyId (keyIdSet : List String) (keyId : String) : List String :=
  if keyId ∈ keyIdSet then keyIdSet else keyIdSet.orderedInsert (· ≤ ·) keyId

/-- `size_t` subtraction of one: zero wraps to `2 ^ 64 - 1`. -/
def sizeTDec (x : Nat) : Nat := (x + 2 ^ 64 - 1) % 2 ^ 64

theorem sizeTDec_succ {x : Nat} (h : x < 2 ^ 64) : sizeTDec (x + 1) = x := by
  unfold sizeTDec
  omega

/-- Below `2 ^ 64` the wrapped subtraction loses nothing. -/
theorem sizeTDec_inj {a b : Nat} (ha : a < 2 ^ 64) (hb : b < 2 ^ 64) :
    sizeTDec a = sizeTDec b ↔ a = b := by
  unfold sizeTDec
  omega

namespace ListState

/-- The failure path of the callbacks: `compare_exchange_strong(false, true)` on
`got_failure`, and for the first failure the context's result and `Finish`. -/
def fail (s : ListState) (result : ExecutionResult) : ListState :=
  if s.status.gotFailure then s
  else { s with status.gotFailure := true, finishes := s.finishes ++ [⟨result, none⟩] }

@[simp] theorem fail_fetches (s : ListState) (result : ExecutionResult) :
    (s.fail result).fetches = s.fetches := by
  unfold fail; split <;> rfl

@[simp] theorem fail_decrypts (s : ListState) (result : ExecutionResult) :
    (s.fail result).decrypts = s.decrypts := by
  unfold fail; split <;> rfl

@[simp] theorem fail_crashed (s : ListState) (result : ExecutionResult) :
    (s.fail result).crashed = s.crashed := by
  unfold fail; split <;> rfl

/-- A failure touches nothing of the status but `got_failure`. -/
@[simp] theorem fail_status (s : ListState) (result : ExecutionResult) :
    (s.fail result).status = { s.status with gotFailure := true } := by
  unfold fail
  split
  · next h => rw [← h]
  · rfl

theorem fail_finishes {s : ListState} (h : s.status.gotFailure = false) (result : ExecutionResult) :
    (s.fail result).finishes = s.finishes ++ [⟨result, none⟩] := by
  simp [fail, h]

/-- End a callback as its loop stopped. -/
def stop (s : ListState) : Option Stop → ListState
  | none => s
  | some (.failure result) => s.fail result
  | some .crash => { s with crashed := true }

@[simp] theorem stop_totalKeySplitCount (s : ListState) (stop : Option Stop) :
    (s.stop stop).status.totalKeySplitCount = s.status.totalKeySplitCount := by
  rcases stop with _ | (_ | _) <;> simp [ListState.stop]

/-- End a callback with the end of the loop over the key ids. -/
def complete (s : ListState) (completion : Completion) : ListState :=
  { s with finishes := s.finishes ++ completion.finish.toList, crashed := completion.crashed }

end ListState

namespace PrivateKeyClientProvider

variable (provider : PrivateKeyClientProvider)

/-- The fetches `ListPrivateKeys` sends: for each call index, one to each
endpoint. -/
def fetchingRequests (request : ListPrivateKeysRequest) (listingMethod : ListingMethod)
    (callCountPerEndpoint : Nat) : List PrivateKeyFetchingRequest :=
  (List.range callCountPerEndpoint).flatMap fun callIndex =>
    (List.range provider.endpointCount).map fun uriIndex =>
      match listingMethod with
      | .kByKeyId => ⟨uriIndex, request.keyIds[callIndex]?, none⟩
      | .kByMaxAge => ⟨uriIndex, none, some request.maxAgeSeconds⟩

/-- The loop of `ListPrivateKeys`: the fetches the fetcher takes, up to the
first it refuses, and that refusal. -/
def sendFetches : List PrivateKeyFetchingRequest →
    List PrivateKeyFetchingRequest × Option ExecutionResult
  | [] => ([], none)
  | request :: requests =>
      let result := provider.fetchPrivateKey request
      if result.successful then
        let sent := sendFetches requests
        (request :: sent.1, sent.2)
      else ([], some result)

/-- A loop that no refusal stopped sent every fetch. -/
theorem sendFetches_of_none {requests : List PrivateKeyFetchingRequest}
    (h : (sendFetches provider requests).2 = none) : (sendFetches provider requests).1 = requests := by
  induction requests with
  | nil => rfl
  | cons request requests ih =>
      unfold sendFetches at h ⊢
      dsimp only at h ⊢
      split
      · next hok => simp only [if_pos hok] at h; rw [ih h]
      · next hok => simp only [if_neg hok] at h; cases h

theorem length_fetchingRequests (request : ListPrivateKeysRequest) (listingMethod : ListingMethod)
    (callCountPerEndpoint : Nat) :
    (fetchingRequests provider request listingMethod callCountPerEndpoint).length =
      callCountPerEndpoint * provider.endpointCount := by
  simp [fetchingRequests, List.length_flatMap, List.map_const']

/-- `ListPrivateKeys`: its return value, and the listing it leaves running. -/
def listPrivateKeys (request : ListPrivateKeysRequest) : ExecutionResult × ListState :=
  let listingMethod := if request.keyIds.isEmpty then ListingMethod.kByMaxAge else .kByKeyId
  let callCountPerEndpoint :=
    match listingMethod with
    | .kByKeyId => request.keyIds.length
    | .kByMaxAge => 1
  let status : ListPrivateKeysStatus :=
    { resultList := List.replicate provider.endpointCount {}
      keyIdSet := []
      listingMethod := listingMethod
      callCountPerEndpoint := callCountPerEndpoint }
  let sent := sendFetches provider (fetchingRequests provider request listingMethod callCountPerEndpoint)
  let s : ListState := ⟨status, sent.1, [], [], false⟩
  match sent.2 with
  | none => (successExecutionResult, s)
  | some result => (result, s.fail result)

/-- Where `OnFetchPrivateKeyCallback` stores a fetch's result: listing by key
id, under the key id in the endpoint's map, and the key id joins the set;
listing by age, as the endpoint's one result. -/
def recordFetchResult (status : ListPrivateKeysStatus) (request : PrivateKeyFetchingRequest)
    (result : ExecutionResult) : Except ExecutionResult ListPrivateKeysStatus :=
  match status.listingMethod with
  | .kByKeyId =>
      -- every fetch of a listing by key id carries its key id
      let keyId := request.keyId.getD ""
      let keyResult := status.resultList.getD request.uriIndex {}
      (ConcurrentMap.insert keyResult.fetchResultKeyIdMap keyId result).map fun m =>
        { status with
          resultList := status.resultList.set request.uriIndex
            { keyResult with fetchResultKeyIdMap := m }
          keyIdSet := insertKeyId status.keyIdSet keyId }
  | .kByMaxAge =>
      .ok { status with
            resultList := status.resultList.modify request.uriIndex
              fun keyResult => { keyResult with fetchResult := result } }

/-- Storing a fetch's result touches only the results and the key id set. -/
theorem recordFetchResult_eq_ok {status status' : ListPrivateKeysStatus}
    {request : PrivateKeyFetchingRequest} {result : ExecutionResult}
    (h : recordFetchResult status request result = .ok status') :
    ∃ resultList keyIdSet, status' = { status with resultList := resultList, keyIdSet := keyIdSet } := by
  unfold recordFetchResult at h
  split at h
  · dsimp only at h
    cases hinsert : ConcurrentMap.insert (status.resultList.getD request.uriIndex {}).fetchResultKeyIdMap
        (request.keyId.getD "") result with
    | error e =>
        rw [hinsert] at h
        cases h
    | ok m =>
        rw [hinsert] at h
        exact ⟨_, _, (Except.ok.inj h).symm⟩
  · cases h
    exact ⟨_, status.keyIdSet, rfl⟩

/-- The loop of `OnFetchPrivateKeyCallback` over the fetched keys: listing by
age, each key id joins the set; then the key's decrypt request is built and
sent. It gives the set after the loop, the decrypts sent, and how it stopped. -/
def sendDecrypts (listingMethod : ListingMethod) (uriIndex : Nat) :
    List String → List EncryptionKey → List String × List DecryptCall × Option Stop
  | keyIdSet, [] => (keyIdSet, [], none)
  | keyIdSet, encryptionKey :: encryptionKeys =>
      let keyIdSet :=
        match listingMethod with
        | .kByMaxAge => insertKeyId keyIdSet encryptionKey.keyId
        | .kByKeyId => keyIdSet
      match getKmsDecryptRequest provider.readKeyset encryptionKey with
      | none => (keyIdSet, [], some .crash)
      | some (.error statusCode) => (keyIdSet, [], some (.failure (failureExecutionResult statusCode)))
      | some (.ok decryptRequest) =>
          let result := provider.decrypt decryptRequest
          if result.successful then
            let rest := sendDecrypts listingMethod uriIndex keyIdSet encryptionKeys
            (rest.1, ⟨encryptionKey, uriIndex⟩ :: rest.2.1, rest.2.2)
          else (keyIdSet, [], some (.failure result))

/-- A loop over the fetched keys that did not stop sent one decrypt per key. -/
theorem sendDecrypts_of_none {listingMethod : ListingMethod} {uriIndex : Nat} :
    ∀ {keyIdSet : List String} {encryptionKeys : List EncryptionKey},
      (sendDecrypts provider listingMethod uriIndex keyIdSet encryptionKeys).2.2 = none →
        (sendDecrypts provider listingMethod uriIndex keyIdSet encryptionKeys).2.1.length =
          encryptionKeys.length
  | _, [], _ => rfl
  | keyIdSet, encryptionKey :: encryptionKeys, h => by
      unfold sendDecrypts at h ⊢
      dsimp only at h ⊢
      rcases hrequest : getKmsDecryptRequest provider.readKeyset encryptionKey with
        _ | (_ | decryptRequest)
      · simp [hrequest] at h
      · simp [hrequest] at h
      · simp only [hrequest] at h ⊢
        split
        · next hsent =>
            simp only [if_pos hsent] at h
            simp [sendDecrypts_of_none h]
        · next hsent =>
            rw [ExecutionResult.successful_iff] at hsent
            simp [hsent] at h

/-- The loop over the endpoints for a key id without a single-party key: the
decrypt result of each endpoint in order, while each endpoint has one and it
lists as many key data as there are endpoints. -/
def collectSplits (status : ListPrivateKeysStatus) (keyId : String) :
    Option (List DecryptResult) :=
  (List.range provider.endpointCount).mapM fun i =>
    ((status.resultList.getD i {}).decryptResultKeyIdMap.find keyId).filter
      fun decryptResult => decryptResult.encryptionKey.keyData.length == provider.endpointCount

/-- `ConstructPrivateKey` in the loop over the key ids: a key joins the
response, a failure finishes the context. -/
def addPrivateKey (privateKeys : List PrivateKey) (decryptResults : List DecryptResult) :
    Completion ⊕ List PrivateKey :=
  match constructPrivateKey decryptResults with
  | .error statusCode => .inl ⟨some ⟨failureExecutionResult statusCode, some privateKeys⟩, false⟩
  | .ok privateKey => .inr (privateKeys ++ [privateKey])

/-- One key id of the loop in `OnDecryptCallback`: the keys after it when the
loop goes on, or how the loop ends. `encryptionKey` is the callback's key;
the log lines of the unmatched-splits branch read its key id. -/
def completeKeyId (status : ListPrivateKeysStatus) (encryptionKey : Option EncryptionKey)
    (privateKeys : List PrivateKey) (keyId : String) : Completion ⊕ List PrivateKey :=
  match extractSinglePartyKey status.resultList keyId with
  | some singlePartyKey => addPrivateKey privateKeys [singlePartyKey]
  | none =>
      let executionResult := extractAnyFailure status.resultList keyId
      if !executionResult.successful then .inl ⟨some ⟨executionResult, some privateKeys⟩, false⟩
      else
        match collectSplits provider status keyId with
        | some decryptResults => addPrivateKey privateKeys decryptResults
        | none =>
            match status.listingMethod with
            | .kByKeyId =>
                -- `Finish` comes before the error log line
                .inl ⟨some ⟨failureExecutionResult scPrivateKeyClientProviderUnmatchedEndpointsSplits,
                  some privateKeys⟩, provider.logsError && encryptionKey.isNone⟩
            | .kByMaxAge =>
                -- the warning log line, then the key id is skipped
                if provider.logsWarning && encryptionKey.isNone then .inl ⟨none, true⟩
                else .inr privateKeys

/-- The loop over `key_id_set` once every call has returned. -/
def completeKeyIds (status : ListPrivateKeysStatus) (encryptionKey : Option EncryptionKey) :
    List String → List PrivateKey → Completion
  | [], privateKeys => ⟨some ⟨successExecutionResult, some privateKeys⟩, false⟩
  | keyId :: keyIds, privateKeys =>
      match completeKeyId provider status encryptionKey privateKeys keyId with
      | .inl completion => completion
      | .inr privateKeys => completeKeyIds status encryptionKey keyIds privateKeys

/-- The test that ends `OnDecryptCallback`: every fetch has returned, and the
split count before this callback is one less than the total, in `size_t`. -/
def allCallsReturned (status : ListPrivateKeysStatus) (finishedKeySplitCountPrev : Nat) : Bool :=
  status.fetchingCallReturnedCount == status.callCountPerEndpoint * provider.endpointCount &&
    finishedKeySplitCountPrev == sizeTDec status.totalKeySplitCount

/-- The end of `OnDecryptCallback`: the loop over the key ids when every call
has returned. -/
def finishIfComplete (s : ListState) (encryptionKey : Option EncryptionKey)
    (finishedKeySplitCountPrev : Nat) : ListState :=
  if allCallsReturned provider s.status finishedKeySplitCountPrev then
    s.complete (completeKeyIds provider s.status encryptionKey s.status.keyIdSet [])
  else s

@[simp] theorem finishIfComplete_status (s : ListState) (encryptionKey : Option EncryptionKey)
    (finishedKeySplitCountPrev : Nat) :
    (finishIfComplete provider s encryptionKey finishedKeySplitCountPrev).status = s.status := by
  unfold finishIfComplete; split <;> rfl

/-- `OnDecryptCallback`; a null `encryption_key` is the direct call for a
failed or empty fetch. -/
def onDecryptCallback (s : ListState) (encryptionKey : Option EncryptionKey) (uriIndex : Nat)
    (result : ExecutionResult) (plaintext : List UInt8) : ListState :=
  if s.status.gotFailure then s
  else
    match encryptionKey with
    | none => finishIfComplete provider s none (sizeTDec s.status.finishedKeySplitCount)
    | some key =>
        let plaintext := if result.successful then plaintext else []
        let keyResult := s.status.resultList.getD uriIndex {}
        match ConcurrentMap.insert keyResult.decryptResultKeyIdMap key.keyId ⟨result, key, plaintext⟩ with
        | .error insertResult => s.fail insertResult
        | .ok m =>
            finishIfComplete provider
              { s with
                status.resultList := s.status.resultList.set uriIndex
                  { keyResult with decryptResultKeyIdMap := m }
                status.finishedKeySplitCount := s.status.finishedKeySplitCount + 1 }
              (some key) s.status.finishedKeySplitCount

/-- Once the listing failed, a decrypt callback returns at once. -/
theorem onDecryptCallback_of_gotFailure {s : ListState} (hg : s.status.gotFailure = true)
    (encryptionKey : Option EncryptionKey) (uriIndex : Nat) (result : ExecutionResult)
    (plaintext : List UInt8) : onDecryptCallback provider s encryptionKey uriIndex result plaintext = s := by
  simp [onDecryptCallback, hg]

/-- The direct call for a failed or empty fetch goes straight to the
completion test, with the wrapped count before it. -/
theorem onDecryptCallback_none {s : ListState} (hg : s.status.gotFailure = false) (uriIndex : Nat)
    (result : ExecutionResult) (plaintext : List UInt8) :
    onDecryptCallback provider s none uriIndex result plaintext =
      finishIfComplete provider s none (sizeTDec s.status.finishedKeySplitCount) := by
  simp [onDecryptCallback, hg]

/-- `OnFetchPrivateKeyCallback`; the keys of a failed fetch are not read. -/
def onFetchPrivateKeyCallback (s : ListState) (request : PrivateKeyFetchingRequest)
    (result : ExecutionResult) (encryptionKeys : List EncryptionKey) : ListState :=
  if s.status.gotFailure then s
  else
    let s := { s with status.fetchingCallReturnedCount := s.status.fetchingCallReturnedCount + 1 }
    match recordFetchResult s.status request result with
    | .error insertResult => s.fail insertResult
    | .ok status =>
        if !result.successful || encryptionKeys.isEmpty then
          onDecryptCallback provider { s with status := status } none request.uriIndex
            successExecutionResult []
        else
          let sent := sendDecrypts provider status.listingMethod request.uriIndex status.keyIdSet
            encryptionKeys
          ListState.stop
            { s with
              status := { status with
                keyIdSet := sent.1
                totalKeySplitCount := status.totalKeySplitCount + encryptionKeys.length }
              decrypts := s.decrypts ++ sent.2.1 }
            sent.2.2

/-- Once the listing failed, a fetch callback returns at once. -/
theorem onFetchPrivateKeyCallback_of_gotFailure {s : ListState} (hg : s.status.gotFailure = true)
    (request : PrivateKeyFetchingRequest) (result : ExecutionResult)
    (encryptionKeys : List EncryptionKey) :
    onFetchPrivateKeyCallback provider s request result encryptionKeys = s := by
  simp [onFetchPrivateKeyCallback, hg]

/-- One callback, of any call in flight, with any outcome, while the process
runs. -/
inductive Step : ListState → ListState → Prop
  | fetchCallback {s : ListState} {request : PrivateKeyFetchingRequest}
      (result : ExecutionResult) (encryptionKeys : List EncryptionKey)
      (hrun : s.crashed = false) (hmem : request ∈ s.fetches) :
      Step s (onFetchPrivateKeyCallback provider { s with fetches := s.fetches.erase request }
        request result encryptionKeys)
  | decryptCallback {s : ListState} {call : DecryptCall} (result : ExecutionResult)
      (plaintext : List UInt8) (hrun : s.crashed = false) (hmem : call ∈ s.decrypts) :
      Step s (onDecryptCallback provider { s with decrypts := s.decrypts.erase call }
        (some call.encryptionKey) call.uriIndex result plaintext)

/-- The states a listing reaches from `ListPrivateKeys`. -/
def Reachable (request : ListPrivateKeysRequest) (s : ListState) : Prop :=
  Relation.ReflTransGen (Step provider) (listPrivateKeys provider request).2 s

end PrivateKeyClientProvider

end ControlPlane.PrivateKeyClient
