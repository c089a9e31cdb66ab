import ControlPlane.PrivateKey.Provider
import ControlPlane.Lib.Simulation

/-!
# The completion of `ListPrivateKeys`

The listing finishes its context from one of two places: the failure path,
guarded by `got_failure`, and the loop over the key ids, guarded by the
completion test on the counters. The test is exact: while the listing runs,
the fetches in flight and the fetches returned add up to the fetches sent, and
the decrypts in flight and the splits decrypted to the splits fetched, so the
test passes in the callback that returns the last call, and only there. The
`size_t` wrap of its two `- 1` loses nothing below `2 ^ 64` splits.

Hence, in every state a listing reaches, the context has finished at most
once; a listing that runs and has not failed has finished exactly when no
call is in flight; and every key of a successful response was built by
`ConstructPrivateKey` from a single-party decrypt result, or from one
successful decrypt result per endpoint, each listing as many key data as
there are endpoints.

What the invariant leaves open is the end of the process. A callback made
directly for a failed or empty fetch carries a null `encryption_key`, and the
log lines of the unmatched-splits branch read its key id. When that callback
is the last one and the logger writes warnings, a listing by age ends the
process before it finishes the context.
-/

namespace ControlPlane.PrivateKeyClient

open Core PrivateKeyClientUtils Simulation

namespace PrivateKeyClientProvider

variable (provider : PrivateKeyClientProvider)

/-- A key the listing may return: `ConstructPrivateKey` of the single-party
decrypt result of a key id, or of one successful decrypt result per endpoint,
in order, all stored under one key id and each listing as many key data as
there are endpoints. -/
def KeyFromSplits (status : ListPrivateKeysStatus) (privateKey : PrivateKey) : Prop :=
  ∃ keyId decryptResults, constructPrivateKey decryptResults = .ok privateKey ∧
    ((∃ singlePartyKey, decryptResults = [singlePartyKey] ∧
        extractSinglePartyKey status.resultList keyId = some singlePartyKey) ∨
      (decryptResults.length = provider.endpointCount ∧
        ∀ i (hi : i < decryptResults.length),
          (status.resultList.getD i {}).decryptResultKeyIdMap.find keyId = some decryptResults[i] ∧
          decryptResults[i].encryptionKey.keyData.length = provider.endpointCount ∧
          decryptResults[i].decryptResult = successExecutionResult))

/-- What the loop over the key ids may end with: a `Finish` unless a log line
ends the process, a log line that ends it only on a null key, and keys built
from splits in a successful response. -/
structure CompletionSound (status : ListPrivateKeysStatus) (encryptionKey : Option EncryptionKey)
    (completion : Completion) : Prop where
  finish_isSome : completion.crashed = false → completion.finish.isSome
  crashed_of_null : completion.crashed = true → encryptionKey = none
  keys_from_splits : ∀ privateKeys,
    completion.finish = some ⟨successExecutionResult, some privateKeys⟩ →
      ∀ privateKey ∈ privateKeys, KeyFromSplits provider status privateKey

variable {provider}

/-- The splits the loop over the endpoints collects: one per endpoint, in
order, each listing as many key data as there are endpoints. -/
theorem collectSplits_eq_some {status : ListPrivateKeysStatus} {keyId : String}
    {decryptResults : List DecryptResult}
    (h : collectSplits provider status keyId = some decryptResults) :
    decryptResults.length = provider.endpointCount ∧
      ∀ i (hi : i < decryptResults.length),
        (status.resultList.getD i {}).decryptResultKeyIdMap.find keyId = some decryptResults[i] ∧
        decryptResults[i].encryptionKey.keyData.length = provider.endpointCount := by
  obtain ⟨hlen, hat⟩ := List.forall₂_iff_get.mp (mapM_eq_some_iff.mp h)
  rw [List.length_range] at hlen
  refine ⟨hlen.symm, fun i hi => ?_⟩
  have hget := hat i (by simpa [hlen] using hi) hi
  simp only [List.get_eq_getElem, List.getElem_range, Option.filter_eq_some_iff, beq_iff_eq] at hget
  exact hget

/-- A decrypt result that an endpoint holds for a key id without failures is
successful. -/
theorem decryptResult_of_extractAnyFailure {status : ListPrivateKeysStatus} {keyId : String}
    (h : extractAnyFailure status.resultList keyId = successExecutionResult) {i : Nat}
    {decryptResult : DecryptResult}
    (hfind : (status.resultList.getD i {}).decryptResultKeyIdMap.find keyId = some decryptResult) :
    decryptResult.decryptResult = successExecutionResult := by
  rw [List.getD_eq_getElem?_getD] at hfind
  cases hi : status.resultList[i]? with
  | none =>
      rw [hi] at hfind
      simp [ConcurrentMap.find] at hfind
  | some keyResult =>
      rw [hi] at hfind
      exact (extractAnyFailure_eq_success.mp h keyResult (List.mem_of_getElem? hi)).2.2 _ hfind

theorem addPrivateKey_eq_inl {status : ListPrivateKeysStatus} {encryptionKey : Option EncryptionKey}
    {privateKeys : List PrivateKey} {decryptResults : List DecryptResult} {completion : Completion}
    (h : addPrivateKey privateKeys decryptResults = .inl completion) :
    CompletionSound provider status encryptionKey completion := by
  unfold addPrivateKey at h
  split at h
  · cases h
    exact ⟨fun _ => rfl, fun h => (nomatch h), fun _ h => (by simp at h)⟩
  · cases h

theorem addPrivateKey_eq_inr {privateKeys keys : List PrivateKey}
    {decryptResults : List DecryptResult} (h : addPrivateKey privateKeys decryptResults = .inr keys) :
    ∃ privateKey, constructPrivateKey decryptResults = .ok privateKey ∧
      keys = privateKeys ++ [privateKey] := by
  unfold addPrivateKey at h
  split at h
  · cases h
  · next privateKey hkey =>
      cases h
      exact ⟨privateKey, hkey, rfl⟩

/-- A key id that ends the loop ends it soundly. -/
theorem completeKeyId_eq_inl {status : ListPrivateKeysStatus} {encryptionKey : Option EncryptionKey}
    {privateKeys : List PrivateKey} {keyId : String} {completion : Completion}
    (h : completeKeyId provider status encryptionKey privateKeys keyId = .inl completion) :
    CompletionSound provider status encryptionKey completion := by
  unfold completeKeyId at h
  split at h
  · exact addPrivateKey_eq_inl h
  · dsimp only at h
    split at h
    · next hfail =>
        cases h
        refine ⟨fun _ => rfl, fun h => (nomatch h), fun _ h => ?_⟩
        simp only [Option.some.injEq, Finish.mk.injEq] at h
        simp [h.1] at hfail
    · split at h
      · exact addPrivateKey_eq_inl h
      · split at h
        · cases h
          refine ⟨fun _ => rfl, fun h => ?_, fun _ h => (by simp at h)⟩
          simp only [Bool.and_eq_true, Option.isNone_iff_eq_none] at h
          exact h.2
        · split at h
          · next hnull =>
              cases h
              refine ⟨fun h => (nomatch h), fun _ => ?_, fun _ h => (nomatch h)⟩
              simp only [Bool.and_eq_true, Option.isNone_iff_eq_none] at hnull
              exact hnull.2
          · cases h

/-- A key id that lets the loop go on adds at most one key, built from
splits. -/
theorem completeKeyId_eq_inr {status : ListPrivateKeysStatus} {encryptionKey : Option EncryptionKey}
    {privateKeys keys : List PrivateKey} {keyId : String}
    (h : completeKeyId provider status encryptionKey privateKeys keyId = .inr keys) :
    keys = privateKeys ∨
      ∃ privateKey, keys = privateKeys ++ [privateKey] ∧ KeyFromSplits provider status privateKey := by
  unfold completeKeyId at h
  split at h
  · next singlePartyKey hsingle =>
      obtain ⟨privateKey, hkey, rfl⟩ := addPrivateKey_eq_inr h
      exact .inr ⟨privateKey, rfl, keyId, _, hkey, .inl ⟨singlePartyKey, rfl, hsingle⟩⟩
  · dsimp only at h
    split at h
    · cases h
    · next hfail =>
        split at h
        · next decryptResults hsplits =>
            obtain ⟨privateKey, hkey, rfl⟩ := addPrivateKey_eq_inr h
            have hsuccess : extractAnyFailure status.resultList keyId = successExecutionResult := by
              simpa using hfail
            obtain ⟨hlen, hat⟩ := collectSplits_eq_some hsplits
            refine .inr ⟨privateKey, rfl, keyId, decryptResults, hkey, .inr ⟨hlen, fun i hi => ?_⟩⟩
            obtain ⟨hfind, hdata⟩ := hat i hi
            exact ⟨hfind, hdata, decryptResult_of_extractAnyFailure hsuccess hfind⟩
        · split at h
          · cases h
          · split at h
            · cases h
            · cases h
              exact .inl rfl

/-- The loop over the key ids ends soundly, from keys built from splits. -/
theorem completeKeyIds_sound {status : ListPrivateKeysStatus} {encryptionKey : Option EncryptionKey} :
    ∀ (keyIds : List String) (privateKeys : List PrivateKey),
      (∀ privateKey ∈ privateKeys, KeyFromSplits provider status privateKey) →
      CompletionSound provider status encryptionKey
        (completeKeyIds provider status encryptionKey keyIds privateKeys)
  | [], privateKeys, hkeys =>
      ⟨fun _ => rfl, fun h => (nomatch h), fun _ h => by cases h; exact hkeys⟩
  | keyId :: keyIds, privateKeys, hkeys => by
      unfold completeKeyIds
      split
      · next completion h => exact completeKeyId_eq_inl h
      · next keys h =>
          apply completeKeyIds_sound keyIds keys
          rcases completeKeyId_eq_inr h with rfl | ⟨privateKey, rfl, hkey⟩
          · exact hkeys
          · intro key hkey'
            rcases List.mem_append.mp hkey' with hold | hnew
            · exact hkeys key hold
            · rw [List.mem_singleton.mp hnew]
              exact hkey

/-! ## The completion test -/

variable (provider) in
/-- The counts the completion test reads agree with the calls in flight. -/
structure Counted (s : ListState) : Prop where
  fetches_add : s.fetches.length + s.status.fetchingCallReturnedCount =
    s.status.callCountPerEndpoint * provider.endpointCount
  decrypts_add : s.decrypts.length + s.status.finishedKeySplitCount = s.status.totalKeySplitCount

/-- Below `2 ^ 64` splits, the completion test passes exactly when no call is
in flight. -/
theorem allCallsReturned_iff {s : ListState} (hc : Counted provider s)
    (hT : s.status.totalKeySplitCount < 2 ^ 64) :
    allCallsReturned provider s.status (sizeTDec s.status.finishedKeySplitCount) = true ↔
      s.fetches = [] ∧ s.decrypts = [] := by
  have hfetches := hc.fetches_add
  have hdecrypts := hc.decrypts_add
  have hF : s.status.finishedKeySplitCount < 2 ^ 64 := by omega
  simp only [allCallsReturned, Bool.and_eq_true, beq_iff_eq, sizeTDec_inj hF hT,
    ← List.length_eq_zero_iff]
  omega

/-! ## The invariant -/

variable (provider) in
/-- What holds between two callbacks of a listing: at most one `Finish`, and
that of the first failure once `got_failure` is set; while the listing runs
without failure, counts that agree with the calls in flight and a `Finish`
exactly when none is left; and keys built from splits in a successful
response. -/
structure Invariant (s : ListState) : Prop where
  finishes_length_le : s.finishes.length ≤ 1
  finishes_of_gotFailure : s.status.gotFailure = true → ∃ result, s.finishes = [⟨result, none⟩]
  counted : s.crashed = false → s.status.gotFailure = false → Counted provider s
  finished_iff_idle : s.crashed = false → s.status.gotFailure = false →
    (s.finishes ≠ [] ↔ s.fetches = [] ∧ s.decrypts = [])
  keys_from_splits : ∀ privateKeys, ⟨successExecutionResult, some privateKeys⟩ ∈ s.finishes →
    ∀ privateKey ∈ privateKeys, KeyFromSplits provider s.status privateKey

/-- A listing without failure, with calls in flight and no `Finish`. -/
theorem invariant_of_busy {s : ListState} (hg : s.status.gotFailure = false) (hfin : s.finishes = []) (hc : Counted provider s)
    (hbusy : ¬(s.fetches = [] ∧ s.decrypts = [])) : Invariant provider s where
  finishes_length_le := by simp [hfin]
  finishes_of_gotFailure h := by simp [hg] at h
  counted _ _ := hc
  finished_iff_idle _ _ := by simp only [hfin, ne_eq, not_true_eq_false, false_iff]; exact hbusy
  keys_from_splits _ h := by simp [hfin] at h

/-- The first failure of a listing that had not finished. -/
theorem invariant_fail {s : ListState} (hg : s.status.gotFailure = false)
    (hfin : s.finishes = []) (result : ExecutionResult) : Invariant provider (s.fail result) where
  finishes_length_le := by simp [ListState.fail_finishes hg, hfin]
  finishes_of_gotFailure _ := ⟨result, by simp [ListState.fail_finishes hg, hfin]⟩
  counted _ h := by simp at h
  finished_iff_idle _ h := by simp at h
  keys_from_splits _ h := by simp [ListState.fail_finishes hg, hfin] at h

/-- A loop of a callback that ends the process before any `Finish`. -/
theorem invariant_crash {s : ListState} (hg : s.status.gotFailure = false)
    (hfin : s.finishes = []) : Invariant provider { s with crashed := true } where
  finishes_length_le := by simp [hfin]
  finishes_of_gotFailure h := by simp [hg] at h
  counted h := by simp at h
  finished_iff_idle h := by simp at h
  keys_from_splits _ h := by simp [hfin] at h

/-- The end of a decrypt callback, at a running listing without `Finish` whose
counts agree with the calls in flight: the loop over the key ids runs when
none is left, and ends soundly. -/
theorem invariant_finishIfComplete {s : ListState} (hg : s.status.gotFailure = false)
    (hfin : s.finishes = []) (hc : Counted provider s) (hT : s.status.totalKeySplitCount < 2 ^ 64)
    (encryptionKey : Option EncryptionKey) {finishedKeySplitCountPrev : Nat}
    (hprev : finishedKeySplitCountPrev = sizeTDec s.status.finishedKeySplitCount) :
    Invariant provider (finishIfComplete provider s encryptionKey finishedKeySplitCountPrev) := by
  rw [hprev]
  unfold finishIfComplete
  split
  · next hall =>
      have hidle := (allCallsReturned_iff hc hT).mp hall
      have hsound : CompletionSound provider s.status encryptionKey
          (completeKeyIds provider s.status encryptionKey s.status.keyIdSet []) :=
        completeKeyIds_sound s.status.keyIdSet [] (by simp)
      set completion := completeKeyIds provider s.status encryptionKey s.status.keyIdSet []
      refine ⟨?_, fun h => by simp [ListState.complete, hg] at h, fun _ _ => ⟨hc.1, hc.2⟩, fun hrun' _ => ?_,
        fun privateKeys h => ?_⟩
      · cases completion.finish <;> simp [ListState.complete, hfin]
      · have hsome := hsound.finish_isSome hrun'
        simp only [ListState.complete, hfin, List.nil_append, hidle, and_self, iff_true, ne_eq,
          Option.toList_eq_nil_iff]
        exact Option.isSome_iff_ne_none.mp hsome
      · simp only [ListState.complete, hfin, List.nil_append, Option.mem_toList] at h
        exact hsound.keys_from_splits privateKeys h
  · next hall =>
      exact invariant_of_busy hg hfin hc fun hidle => hall ((allCallsReturned_iff hc hT).mpr hidle)

/-- A callback at a failed listing only takes its call off the calls in
flight. -/
theorem Invariant.of_gotFailure {s : ListState} (hinv : Invariant provider s)
    (hg : s.status.gotFailure = true) {s' : ListState} (hstatus : s'.status = s.status)
    (hfin : s'.finishes = s.finishes) : Invariant provider s' where
  finishes_length_le := hfin ▸ hinv.finishes_length_le
  finishes_of_gotFailure _ := hfin ▸ hinv.finishes_of_gotFailure hg
  counted _ h := by rw [hstatus, hg] at h; cases h
  finished_iff_idle _ h := by rw [hstatus, hg] at h; cases h
  keys_from_splits := hstatus ▸ hfin ▸ hinv.keys_from_splits

/-- A listing without failure that has a call in flight has not finished. -/
theorem Invariant.finishes_eq_nil {s : ListState} (hinv : Invariant provider s)
    (hrun : s.crashed = false) (hg : s.status.gotFailure = false)
    (hbusy : ¬(s.fetches = [] ∧ s.decrypts = [])) : s.finishes = [] := by
  by_contra hne
  exact hbusy ((hinv.finished_iff_idle hrun hg).mp hne)

/-- The end of a fetch callback that sent decrypts: a loop that did not stop
left decrypts in flight. -/
theorem invariant_stop {s : ListState} (hg : s.status.gotFailure = false) (hfin : s.finishes = [])
    {stop : Option Stop} (hnone : stop = none → Counted provider s ∧ s.decrypts ≠ []) :
    Invariant provider (s.stop stop) := by
  rcases stop with _ | (result | _)
  · obtain ⟨hc, hne⟩ := hnone rfl
    exact invariant_of_busy hg hfin hc fun hidle => hne hidle.2
  · exact invariant_fail hg hfin result
  · exact invariant_crash hg hfin

/-- A fetch callback keeps the invariant. -/
theorem invariant_onFetchPrivateKeyCallback {s : ListState} (hinv : Invariant provider s)
    (hrun : s.crashed = false) {request : PrivateKeyFetchingRequest} (hmem : request ∈ s.fetches)
    (hT : s.status.totalKeySplitCount < 2 ^ 64) (result : ExecutionResult)
    (encryptionKeys : List EncryptionKey) :
    Invariant provider (onFetchPrivateKeyCallback provider { s with fetches := s.fetches.erase request }
      request result encryptionKeys) := by
  cases hg : s.status.gotFailure with
  | true =>
      rw [onFetchPrivateKeyCallback_of_gotFailure provider]
      · exact hinv.of_gotFailure hg rfl rfl
      · exact hg
  | false =>
      have hc := hinv.counted hrun hg
      have hfin := hinv.finishes_eq_nil hrun hg fun hidle => by simp [hidle.1] at hmem
      have hfetches := hc.fetches_add
      have hdecrypts := hc.decrypts_add
      have hlen := List.length_erase_of_mem hmem
      have hpos := List.length_pos_of_mem hmem
      unfold onFetchPrivateKeyCallback
      simp only [hg, Bool.false_eq_true, if_false]
      split
      · next insertResult _ =>
          refine invariant_fail ?_ ?_ insertResult
          · rfl
          · exact hfin
      · next status hrecord =>
          obtain ⟨resultList, keyIdSet, rfl⟩ := recordFetchResult_eq_ok hrecord
          split
          · -- the direct call of the decrypt callback for a failed or empty fetch
            rw [onDecryptCallback_none provider]
            · refine invariant_finishIfComplete ?_ ?_ ⟨?_, ?_⟩ ?_ none rfl
              · rfl
              · exact hfin
              · dsimp only
                omega
              · exact hdecrypts
              · exact hT
            · rfl
          · next hkeys =>
              have hne : encryptionKeys ≠ [] := by
                simp only [Bool.or_eq_true, Bool.not_eq_true', not_or] at hkeys
                simpa using hkeys.2
              apply invariant_stop
              · rfl
              · exact hfin
              · intro hnone
                have hsent := sendDecrypts_of_none provider hnone
                have hkeys := List.length_pos_iff.mpr hne
                dsimp only at hsent
                refine ⟨⟨?_, ?_⟩, ?_⟩
                · dsimp only
                  omega
                · dsimp only
                  simp only [List.length_append]
                  omega
                · dsimp only
                  simp only [ne_eq, List.append_eq_nil_iff, not_and]
                  intro _ hnil
                  rw [hnil, List.length_nil] at hsent
                  omega

/-- A decrypt callback keeps the invariant. -/
theorem invariant_onDecryptCallback {s : ListState} (hinv : Invariant provider s)
    (hrun : s.crashed = false) {call : DecryptCall} (hmem : call ∈ s.decrypts)
    (hT : s.status.totalKeySplitCount < 2 ^ 64) (result : ExecutionResult) (plaintext : List UInt8) :
    Invariant provider (onDecryptCallback provider { s with decrypts := s.decrypts.erase call }
      (some call.encryptionKey) call.uriIndex result plaintext) := by
  cases hg : s.status.gotFailure with
  | true =>
      rw [onDecryptCallback_of_gotFailure provider]
      · exact hinv.of_gotFailure hg rfl rfl
      · exact hg
  | false =>
      have hc := hinv.counted hrun hg
      have hfin := hinv.finishes_eq_nil hrun hg fun hidle => by simp [hidle.2] at hmem
      have hfetches := hc.fetches_add
      have hdecrypts := hc.decrypts_add
      have hlen := List.length_erase_of_mem hmem
      have hpos := List.length_pos_of_mem hmem
      -- the count before this callback is the wrapped count after it
      have hprev : s.status.finishedKeySplitCount = sizeTDec (s.status.finishedKeySplitCount + 1) :=
        (sizeTDec_succ (by omega)).symm
      unfold onDecryptCallback
      simp only [hg, Bool.false_eq_true, if_false]
      split
      · next insertResult _ =>
          refine invariant_fail ?_ ?_ insertResult
          · exact hg
          · exact hfin
      · refine invariant_finishIfComplete ?_ ?_ ⟨?_, ?_⟩ ?_ _ hprev
        · rfl
        · exact hfin
        · exact hfetches
        · dsimp only
          omega
        · exact hT

/-- `ListPrivateKeys` leaves a listing that keeps the invariant: every fetch
in flight, or the refusal that failed it. -/
theorem invariant_listPrivateKeys (request : ListPrivateKeysRequest) :
    Invariant provider (listPrivateKeys provider request).2 := by
  unfold listPrivateKeys
  dsimp only
  split
  · next hnone =>
      have hsent := sendFetches_of_none provider hnone
      refine invariant_of_busy rfl rfl ⟨?_, rfl⟩ ?_
      · dsimp only
        rw [hsent, length_fetchingRequests, Nat.add_zero]
      · -- one call per endpoint at least, and one endpoint at least
        rintro ⟨hidle, -⟩
        have hlen := congrArg List.length (hsent.symm.trans hidle)
        rw [length_fetchingRequests, List.length_nil] at hlen
        have hn := provider.endpointCount_pos
        cases hk : request.keyIds with
        | nil =>
            simp only [hk, List.isEmpty_nil, if_true, Nat.one_mul] at hlen
            omega
        | cons keyId keyIds =>
            simp only [hk, List.isEmpty_cons, Bool.false_eq_true, if_false, List.length_cons,
              Nat.mul_eq_zero] at hlen
            omega
  · next result _ =>
      dsimp only
      refine invariant_fail ?_ ?_ result <;> rfl

/-- Every callback keeps the invariant, below `2 ^ 64` splits. -/
theorem invariant_step {s s' : ListState} (hinv : Invariant provider s)
    (hT : s.status.totalKeySplitCount < 2 ^ 64) (h : Step provider s s') : Invariant provider s' := by
  cases h with
  | fetchCallback result encryptionKeys hrun hmem =>
      exact invariant_onFetchPrivateKeyCallback hinv hrun hmem hT result encryptionKeys
  | decryptCallback result plaintext hrun hmem =>
      exact invariant_onDecryptCallback hinv hrun hmem hT result plaintext

/-- The count of splits fetched only grows. -/
theorem totalKeySplitCount_le_of_step {s s' : ListState} (h : Step provider s s') :
    s.status.totalKeySplitCount ≤ s'.status.totalKeySplitCount := by
  cases h with
  | fetchCallback result encryptionKeys hrun hmem =>
      unfold onFetchPrivateKeyCallback
      split
      · exact le_refl _
      · dsimp only
        split
        · simp
        · next status hrecord =>
            obtain ⟨resultList, keyIdSet, rfl⟩ := recordFetchResult_eq_ok hrecord
            split
            · unfold onDecryptCallback
              split <;> simp
            · simp
  | decryptCallback result plaintext hrun hmem =>
      unfold onDecryptCallback
      split
      · exact le_refl _
      · dsimp only
        split
        · simp
        · simp

/-- The invariant holds in every state a listing reaches with fewer than
`2 ^ 64` splits fetched. -/
theorem invariant_of_reachable {request : ListPrivateKeysRequest} {s : ListState}
    (h : Reachable provider request s) (hT : s.status.totalKeySplitCount < 2 ^ 64) :
    Invariant provider s := by
  induction h with
  | refl => exact invariant_listPrivateKeys request
  | tail _ hstep ih =>
      have hle := totalKeySplitCount_le_of_step hstep
      exact invariant_step (ih (by omega)) (by omega) hstep

/-! ## What every listing reaches -/

section Reachable

variable {request : ListPrivateKeysRequest} {s : ListState}

/-- The context finishes at most once. -/
theorem finishes_length_le_one (h : Reachable provider request s)
    (hT : s.status.totalKeySplitCount < 2 ^ 64) : s.finishes.length ≤ 1 :=
  (invariant_of_reachable h hT).finishes_length_le

/-- A listing that has not failed finishes only once no call is in flight. -/
theorem idle_of_finished (h : Reachable provider request s)
    (hT : s.status.totalKeySplitCount < 2 ^ 64) (hrun : s.crashed = false)
    (hg : s.status.gotFailure = false) (hfin : s.finishes ≠ []) :
    s.fetches = [] ∧ s.decrypts = [] :=
  ((invariant_of_reachable h hT).finished_iff_idle hrun hg).mp hfin

/-- A listing whose process runs and that has no call in flight has finished
its context exactly once. -/
theorem finishes_length_eq_one (h : Reachable provider request s)
    (hT : s.status.totalKeySplitCount < 2 ^ 64) (hrun : s.crashed = false)
    (hidle : s.fetches = [] ∧ s.decrypts = []) : s.finishes.length = 1 := by
  have hinv := invariant_of_reachable h hT
  cases hg : s.status.gotFailure with
  | true =>
      obtain ⟨result, hresult⟩ := hinv.finishes_of_gotFailure hg
      rw [hresult, List.length_singleton]
  | false =>
      have hpos := List.length_pos_iff.mpr ((hinv.finished_iff_idle hrun hg).mpr hidle)
      have hle := hinv.finishes_length_le
      omega

/-- Every key of a successful response was built from splits: from a
single-party decrypt result, or from one successful decrypt result per
endpoint, each listing as many key data as there are endpoints. -/
theorem keyFromSplits_of_finish (h : Reachable provider request s)
    (hT : s.status.totalKeySplitCount < 2 ^ 64) {privateKeys : List PrivateKey}
    (hfinish : ⟨successExecutionResult, some privateKeys⟩ ∈ s.finishes) :
    ∀ privateKey ∈ privateKeys, KeyFromSplits provider s.status privateKey :=
  (invariant_of_reachable h hT).keys_from_splits privateKeys hfinish

end Reachable

end PrivateKeyClientProvider

/-! ## A listing by age that ends the process before it finishes

The repository's test `LastEndpointReturnEmptyList` lists by age over
endpoints the last of which returns no key. Over two endpoints, with the
callback of that empty fetch delivered last, the callback made directly for
it passes the completion test with a null `encryption_key`; the key of the
first endpoint has no split at the second, and the warning of the
unmatched-splits branch reads the null key's id. -/

/-- Two endpoints whose fetcher and KMS client take every call, and a logger
that writes warnings and errors. -/
def loggedProvider : PrivateKeyClientProvider where
  endpointCount := 2
  endpointCount_pos := by decide
  fetchPrivateKey _ := successExecutionResult
  decrypt _ := successExecutionResult
  readKeyset _ := .cannotCreate
  logsWarning := true
  logsError := true

def byAgeRequest : ListPrivateKeysRequest := ⟨[], 3600⟩

def firstEndpointFetch : PrivateKeyFetchingRequest := ⟨0, none, some 3600⟩

def lastEndpointFetch : PrivateKeyFetchingRequest := ⟨1, none, some 3600⟩

/-- A key split over two endpoints, as the first endpoint returns it: the key
material of its own split only. -/
def splitKey : EncryptionKey :=
  ⟨"key", .kMultiPartyHybridEvenKeysplit, "public", 0, 0,
    [⟨"aws-kms://key0", "split0"⟩, ⟨"aws-kms://key1", ""⟩]⟩

namespace PrivateKeyClientProvider

variable (provider : PrivateKeyClientProvider)

/-- The first endpoint answers with the split key. -/
def afterFirstFetch : ListState :=
  let s := (listPrivateKeys provider byAgeRequest).2
  onFetchPrivateKeyCallback provider { s with fetches := s.fetches.erase firstEndpointFetch }
    firstEndpointFetch successExecutionResult [splitKey]

/-- KMS decrypts the first endpoint's split. -/
def afterFirstDecrypt : ListState :=
  let s := afterFirstFetch provider
  onDecryptCallback provider { s with decrypts := s.decrypts.erase ⟨splitKey, 0⟩ }
    (some splitKey) 0 successExecutionResult [7]

/-- The last endpoint answers with no key. -/
def afterLastFetch : ListState :=
  let s := afterFirstDecrypt provider
  onFetchPrivateKeyCallback provider { s with fetches := s.fetches.erase lastEndpointFetch }
    lastEndpointFetch successExecutionResult []

/-- The listing reaches, with every call returned, a state where the process
has ended and the context has not finished. -/
theorem listPrivateKeys_ends_before_finish :
    Reachable loggedProvider byAgeRequest (afterLastFetch loggedProvider) ∧
      (afterLastFetch loggedProvider).fetches = [] ∧
      (afterLastFetch loggedProvider).decrypts = [] ∧
      (afterLastFetch loggedProvider).finishes = [] ∧
      (afterLastFetch loggedProvider).crashed = true := by
  have hfirst : Step loggedProvider (listPrivateKeys loggedProvider byAgeRequest).2
      (afterFirstFetch loggedProvider) :=
    .fetchCallback _ _ (by decide) (by decide)
  have hdecrypt : Step loggedProvider (afterFirstFetch loggedProvider)
      (afterFirstDecrypt loggedProvider) :=
    .decryptCallback _ _ (by decide) (by decide)
  have hlast : Step loggedProvider (afterFirstDecrypt loggedProvider)
      (afterLastFetch loggedProvider) :=
    .fetchCallback _ _ (by decide) (by decide)
  exact ⟨(Relation.ReflTransGen.single hfirst).tail hdecrypt |>.tail hlast,
    by decide, by decide, by decide, by decide⟩

/-- Without a logger the same run finishes with success and no key. -/
example : (afterLastFetch { loggedProvider with logsWarning := false, logsError := false }).finishes =
    [⟨successExecutionResult, some []⟩] := by
  decide

end PrivateKeyClientProvider

end ControlPlane.PrivateKeyClient
