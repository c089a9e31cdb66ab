import Mathlib
import ControlPlane.Core.Common
import ControlPlane.Lib.Record

/-!
# `PrivateKeyClientUtils`: decrypt requests, key reconstruction, and the results per endpoint

A private key is kept by several key vending endpoints. Each endpoint returns
an encryption key whose key data hold one split of the secret, encrypted
under a KMS key; a single-party key has one split, held as a Tink keyset.
`GetKmsDecryptRequest` turns an encryption key into the KMS decrypt request
for its split, and `ConstructPrivateKey` XORs the decrypted splits back into
the secret.

The listing keeps, per endpoint, the fetch results and the decrypt results by
key id. `ExtractAnyFailure` reads the first failure any endpoint holds for a
key id, and `ExtractSinglePartyKey` the first single-party decrypt result.

Strings of bytes are byte lists here, so `StrToBytes` is the identity; the
secret of a `PrivateKey` is kept as the bytes the source Base64-encodes.
-/

namespace ControlPlane.PrivateKeyClient

open Core Record

def scPrivateKeyClientProvider : Nat := 0x0223

def scPrivateKeyClientProviderKeyDataNotFound : StatusCode :=
  makeErrorCode scPrivateKeyClientProvider 0x0001

def scPrivateKeyClientProviderSecretPieceSizeUnmatched : StatusCode :=
  makeErrorCode scPrivateKeyClientProvider 0x0002

def scPrivateKeyClientProviderUnmatchedEndpointsSplits : StatusCode :=
  makeErrorCode scPrivateKeyClientProvider 0x0003

def scPrivateKeyClientProviderInvalidKeyResourceName : StatusCode :=
  makeErrorCode scPrivateKeyClientProvider 0x0004

def scPrivateKeyClientProviderInvalidKeyDataCount : StatusCode :=
  makeErrorCode scPrivateKeyClientProvider 0x0006

def scPrivateKeyClientProviderCannotCreateJsonKeySet : StatusCode :=
  makeErrorCode scPrivateKeyClientProvider 0x0007

def scPrivateKeyClientProviderCannotReadEncryptedKeySet : StatusCode :=
  makeErrorCode scPrivateKeyClientProvider 0x0008

inductive EncryptionKeyType
  | kUnknownEncryptionKeyType
  | kSinglePartyHybridKey
  | kMultiPartyHybridEvenKeysplit
  deriving DecidableEq, Repr

/-- `KeyData`; a null `key_material` reads as empty. -/
structure KeyData where
  keyEncryptionKeyUri : String
  keyMaterial : String
  deriving DecidableEq, Repr

structure EncryptionKey where
  keyId : String
  encryptionKeyType : EncryptionKeyType
  publicKeyMaterial : String
  expirationTimeInMs : Nat
  creationTimeInMs : Nat
  keyData : List KeyData
  deriving DecidableEq, Repr

/-- The fields of the KMS `DecryptRequest` that `GetKmsDecryptRequest` sets. -/
structure DecryptRequest where
  ciphertext : String
  keyResourceName : String
  deriving DecidableEq, Repr

/-- `DecryptResult`; the plaintext stays empty when the decrypt failed. -/
structure DecryptResult where
  decryptResult : ExecutionResult
  encryptionKey : EncryptionKey
  plaintext : List UInt8
  deriving DecidableEq, Repr

/-- `KeysResultPerEndpoint`: the fetch results by key id when listing by key
id, the one fetch result of the endpoint when listing by age, and the decrypt
results by key id. -/
structure KeysResultPerEndpoint where
  fetchResultKeyIdMap : ConcurrentMap String ExecutionResult := ∅
  fetchResult : ExecutionResult := successExecutionResult
  decryptResultKeyIdMap : ConcurrentMap String DecryptResult := ∅

/-- `PrivateKey`; the times are in milliseconds. -/
structure PrivateKey where
  keyId : String
  publicKey : String
  privateKey : List UInt8
  expirationTime : Nat
  creationTime : Nat
  deriving DecidableEq, Repr

/-- What Tink's `JsonKeysetReader` makes of a key material: no reader, a reader
whose `ReadEncrypted` fails, or the encrypted keyset, Base64-escaped back. -/
inductive KeysetRead
  | cannotCreate
  | cannotRead
  | encryptedKeyset (escaped : String)
  deriving DecidableEq, Repr

def kKeyArnPrefixSize : Nat := 10

/-- `std::string::substr(pos)`; `none` is the `std::out_of_range` it throws
past the end. -/
def substr (s : String) (pos : Nat) : Option String :=
  if pos ≤ s.length then some (s.drop pos).copy else none

namespace PrivateKeyClientUtils

section Request

variable (readKeyset : String → KeysetRead)

/-- `GetKmsDecryptRequest`. The outer `none` is the `std::out_of_range` of
`substr` on a single-party key whose URI is shorter than the prefix: the
function is `noexcept`, so the exception ends the process. -/
def getKmsDecryptRequest (encryptionKey : EncryptionKey) :
    Option (Except StatusCode DecryptRequest) :=
  match encryptionKey.encryptionKeyType with
  | .kSinglePartyHybridKey =>
      match encryptionKey.keyData with
      | [keyData] =>
          match readKeyset keyData.keyMaterial with
          | .cannotCreate => some (.error scPrivateKeyClientProviderCannotCreateJsonKeySet)
          | .cannotRead => some (.error scPrivateKeyClientProviderCannotReadEncryptedKeySet)
          | .encryptedKeyset escaped =>
              (substr keyData.keyEncryptionKeyUri kKeyArnPrefixSize).map
                fun keyResourceName => .ok ⟨escaped, keyResourceName⟩
      | _ => some (.error scPrivateKeyClientProviderInvalidKeyDataCount)
  | .kMultiPartyHybridEvenKeysplit =>
      -- the first key data with key material holds this endpoint's split
      match encryptionKey.keyData.find? (fun keyData => !keyData.keyMaterial.isEmpty) with
      | some keyData =>
          if keyData.keyEncryptionKeyUri.length < kKeyArnPrefixSize then
            some (.error scPrivateKeyClientProviderInvalidKeyResourceName)
          else
            (substr keyData.keyEncryptionKeyUri kKeyArnPrefixSize).map
              fun keyResourceName => .ok ⟨keyData.keyMaterial, keyResourceName⟩
      | none => some (.error scPrivateKeyClientProviderKeyDataNotFound)
  | .kUnknownEncryptionKeyType => some (.error scPrivateKeyClientProviderKeyDataNotFound)

/-- Only a single-party key ends the process, and only through a URI shorter
than the prefix. -/
theorem getKmsDecryptRequest_eq_none {encryptionKey : EncryptionKey}
    (h : getKmsDecryptRequest readKeyset encryptionKey = none) :
    encryptionKey.encryptionKeyType = .kSinglePartyHybridKey ∧
      ∃ keyData, encryptionKey.keyData = [keyData] ∧
        keyData.keyEncryptionKeyUri.length < kKeyArnPrefixSize := by
  unfold getKmsDecryptRequest at h
  split at h
  · split at h
    · split at h
      · cases h
      · cases h
      · rw [Option.map_eq_none_iff, substr] at h
        split at h
        · cases h
        · exact ⟨by assumption, _, by assumption, by omega⟩
    · cases h
  · split at h
    · split at h
      · cases h
      · rw [Option.map_eq_none_iff, substr, if_pos (by omega)] at h
        cases h
    · cases h
  · cases h

end Request

/-- `XOR`, byte by byte; the caller keeps both operands of one length. -/
def xor (arr1 arr2 : List UInt8) : List UInt8 := List.zipWith (fun a b => a ^^^ b) arr1 arr2

@[simp] theorem length_xor (arr1 arr2 : List UInt8) :
    (xor arr1 arr2).length = min arr1.length arr2.length := List.length_zipWith

/-- One step of `ConstructPrivateKey`'s loop: a piece of another length ends
it. -/
def xorPiece (xorSecret : List UInt8) (decryptResult : DecryptResult) :
    Except StatusCode (List UInt8) :=
  if xorSecret.length ≠ decryptResult.plaintext.length then
    .error scPrivateKeyClientProviderSecretPieceSizeUnmatched
  else .ok (xor xorSecret decryptResult.plaintext)

/-- `ConstructPrivateKey`: the key fields of the first result and the XOR of
all plaintexts. `Base64Encode` of an empty secret fails, since
`EVP_EncodeBlock` then writes nothing. -/
def constructPrivateKey (decryptResults : List DecryptResult) : Except StatusCode PrivateKey :=
  match decryptResults with
  | [] => .error scPrivateKeyClientProviderKeyDataNotFound
  | first :: rest => do
      let xorSecret ← rest.foldlM xorPiece first.plaintext
      if xorSecret.isEmpty then .error scCoreUtilsInvalidInput
      else
        pure { keyId := first.encryptionKey.keyId
               publicKey := first.encryptionKey.publicKeyMaterial
               privateKey := xorSecret
               expirationTime := first.encryptionKey.expirationTimeInMs
               creationTime := first.encryptionKey.creationTimeInMs }

/-- The loop succeeds exactly when every piece is as long as the first, and
then gives the XOR of them all. -/
theorem foldlM_xorPiece_eq_ok {rest : List DecryptResult} {acc xorSecret : List UInt8} :
    rest.foldlM xorPiece acc = .ok xorSecret ↔
      (∀ d ∈ rest, d.plaintext.length = acc.length) ∧
        xorSecret = rest.foldl (fun s d => xor s d.plaintext) acc := by
  induction rest generalizing acc with
  | nil => simp [pure, Except.pure, eq_comm]
  | cons d rest ih =>
      rw [List.foldlM_cons, List.foldl_cons]
      unfold xorPiece
      by_cases hlen : acc.length = d.plaintext.length
      · have hxor : (xor acc d.plaintext).length = acc.length := by simp [hlen]
        rw [if_neg (not_not_intro hlen)]
        change rest.foldlM xorPiece (xor acc d.plaintext) = .ok xorSecret ↔ _
        rw [ih, hxor]
        simp [hlen]
      · rw [if_pos hlen]
        simp only [error_bind, List.mem_cons, forall_eq_or_imp]
        constructor
        · intro h; cases h
        · rintro ⟨⟨h, -⟩, -⟩; exact absurd h.symm hlen

/-- `ConstructPrivateKey` succeeds exactly on a list of results whose
plaintexts are non-empty and of one length, with the XOR of the plaintexts as
the secret and the first result's key fields. -/
theorem constructPrivateKey_eq_ok {decryptResults : List DecryptResult} {key : PrivateKey} :
    constructPrivateKey decryptResults = .ok key ↔
      ∃ first rest, decryptResults = first :: rest ∧
        (∀ d ∈ rest, d.plaintext.length = first.plaintext.length) ∧
        key.privateKey = rest.foldl (fun s d => xor s d.plaintext) first.plaintext ∧
        key.privateKey ≠ [] ∧
        key.keyId = first.encryptionKey.keyId ∧
        key.publicKey = first.encryptionKey.publicKeyMaterial ∧
        key.expirationTime = first.encryptionKey.expirationTimeInMs ∧
        key.creationTime = first.encryptionKey.creationTimeInMs := by
  cases decryptResults with
  | nil => simp [constructPrivateKey]
  | cons first rest =>
      unfold constructPrivateKey
      cases hf : rest.foldlM xorPiece first.plaintext with
      | error e =>
          -- some piece has another length than the first
          have hlen : ¬ ∀ d ∈ rest, d.plaintext.length = first.plaintext.length := fun hall => by
            rw [foldlM_xorPiece_eq_ok.mpr ⟨hall, rfl⟩] at hf
            cases hf
          simp only [hf, error_bind, reduceCtorEq, false_iff, not_exists, not_and, List.cons.injEq]
          rintro _ _ ⟨rfl, rfl⟩ hall
          exact absurd hall hlen
      | ok xorSecret =>
          obtain ⟨hall, rfl⟩ := foldlM_xorPiece_eq_ok.mp hf
          simp only [hf, ok_bind, List.cons.injEq]
          split
          · next hempty =>
              simp only [reduceCtorEq, false_iff, not_exists, not_and]
              rintro _ _ ⟨rfl, rfl⟩ - hkey hne
              exact absurd (hkey.trans (List.isEmpty_iff.mp hempty)) hne
          · next hempty =>
              constructor
              · intro h
                cases h
                exact ⟨first, rest, ⟨rfl, rfl⟩, hall, rfl, fun h => hempty (by simpa using h), rfl, rfl, rfl, rfl⟩
              · rintro ⟨_, _, ⟨rfl, rfl⟩, -, hkey, -, hid, hpub, hexp, hcre⟩
                cases key
                simp only at hkey hid hpub hexp hcre
                subst hkey hid hpub hexp hcre
                rfl

/-- `ExtractAnyFailure`: for each endpoint in order, its fetch result, the
fetch result of the key id, and the decrypt result of the key id; the first
that is not successful. -/
def extractAnyFailure : List KeysResultPerEndpoint → String → ExecutionResult
  | [], _ => successExecutionResult
  | keyResult :: keysResult, keyId =>
      if !keyResult.fetchResult.successful then keyResult.fetchResult
      else
        let fetchFailure := (keyResult.fetchResultKeyIdMap.find keyId).filter
          fun fetchResult => !fetchResult.successful
        let decryptFailure := ((keyResult.decryptResultKeyIdMap.find keyId).map
          DecryptResult.decryptResult).filter fun decryptResult => !decryptResult.successful
        match fetchFailure.or decryptFailure with
        | some failure => failure
        | none => extractAnyFailure keysResult keyId

/-- `ExtractAnyFailure` is successful exactly when every endpoint's fetch
result, and every fetch and decrypt result it holds for the key id, is. -/
theorem extractAnyFailure_eq_success {keysResult : List KeysResultPerEndpoint} {keyId : String} :
    extractAnyFailure keysResult keyId = successExecutionResult ↔
      ∀ keyResult ∈ keysResult, keyResult.fetchResult = successExecutionResult ∧
        (∀ r, keyResult.fetchResultKeyIdMap.find keyId = some r → r = successExecutionResult) ∧
        (∀ d, keyResult.decryptResultKeyIdMap.find keyId = some d →
          d.decryptResult = successExecutionResult) := by
  induction keysResult with
  | nil => simp [extractAnyFailure]
  | cons keyResult keysResult ih =>
      rw [List.forall_mem_cons, ← ih, extractAnyFailure.eq_2]
      by_cases hf : keyResult.fetchResult = successExecutionResult
      · simp only [hf, successExecutionResult_successful, Bool.not_true, Bool.false_eq_true,
          if_false, true_and]
        split
        · next failure hfail =>
            -- the endpoint holds a failure for the key id, so both sides are false
            simp only [Option.or_eq_some_iff, Option.filter_eq_some_iff, Option.filter_eq_none_iff,
              Option.map_eq_some_iff, Bool.not_eq_true', ExecutionResult.successful_eq_false] at hfail
            have hne : failure ≠ successExecutionResult := by
              rcases hfail with ⟨-, hne⟩ | ⟨-, ⟨d, -, rfl⟩, hne⟩ <;> exact hne
            simp only [hne, false_iff, not_and]
            rintro ⟨hfetch, hdecrypt⟩ -
            rcases hfail with ⟨hfind, -⟩ | ⟨-, ⟨d, hfind, rfl⟩, -⟩
            · exact hne (hfetch _ hfind)
            · exact hne (hdecrypt _ hfind)
        · next hnone =>
            simp only [Option.or_eq_none_iff, Option.filter_eq_none_iff, Option.map_eq_some_iff,
              Bool.not_eq_true', Bool.not_eq_false, ExecutionResult.successful_iff,
              forall_exists_index, and_imp] at hnone
            obtain ⟨hfetch, hdecrypt⟩ := hnone
            simp only [iff_and_self]
            exact fun _ => ⟨hfetch, fun d hd => hdecrypt _ d hd rfl⟩
      · simp only [ExecutionResult.successful_eq_false.mpr hf, Bool.not_false, if_true, hf,
          false_and]
/-- `ExtractSinglePartyKey`: the first single-party decrypt result of the key
id, whether or not its decrypt succeeded. -/
def extractSinglePartyKey (keysResult : List KeysResultPerEndpoint) (keyId : String) :
    Option DecryptResult :=
  keysResult.findSome? fun keyResult =>
    (keyResult.decryptResultKeyIdMap.find keyId).filter
      fun decryptResult => decryptResult.encryptionKey.encryptionKeyType = .kSinglePartyHybridKey

end PrivateKeyClientUtils

end ControlPlane.PrivateKeyClient
