import ControlPlane.PrivateKey.Utils

/-!
# `PrivateKeyFetchingClientUtils::ParsePrivateKey`: reading the key vending response

`ParsePrivateKey` (src/cc/cpio/client_providers/private_key_fetcher_provider/src/
private_key_fetcher_provider_utils.cc) parses the body of the key vending
service's response as JSON: a single encryption key, or an object whose
`keys` holds the encryption keys. Each key is read field by field, and
appended to the response once all its fields are read.

Every function on the way is `noexcept`, yet `nlohmann::json::parse`, the
conversion of a JSON value to a string, `operator[]` with an index and
`std::stol` throw on input they do not accept; such an exception ends the
process. A key that fails after others were read leaves those in the
response. What a successful parse reads is `IsKeyResponse`: each key a
`IsEncryptionKey`, and `parsePrivateKey_eq_success_iff` says that these are
exactly the bodies `ParsePrivateKey` succeeds on.

## Implementation notes

A JSON value is `Json`, an object the list of its members; a number keeps
its literal, which nothing here reads. `nlohmann::json::parse` is the
parameter `parse`, and a thrown exception is an `Except` error of type
`Thrown`. The results the functions return are in an `ExceptT` over it: an
early `return` of a failure is its `throw`.
-/

namespace ControlPlane.PrivateKeyFetcher

open Core

/-- A value as `nlohmann::json` holds it. -/
inductive Json
  | null
  | boolean (value : Bool)
  | number (literal : String)
  | string (value : String)
  | array (elements : List Json)
  | object (members : List (String × Json))

/-- An exception that leaves a `noexcept` function, ending the process. -/
inductive Thrown
  /-- `nlohmann::json::parse_error`: the body is not JSON. -/
  | parseError
  /-- `nlohmann::json::type_error`: 302 for a conversion, 305 for `operator[]`. -/
  | typeError (id : Nat)
  /-- `std::invalid_argument` from `std::stol`: no number. -/
  | invalidArgument
  /-- `std::out_of_range` from `std::stol`: outside `long`. -/
  | outOfRange
  deriving DecidableEq, Repr

namespace Json

/-- `find(key)`: the member of an object; any other value has none. -/
def find : Json → String → Option Json
  | .object members, key => members.lookup key
  | _, _ => none

/-- `size()`. -/
def size : Json → Nat
  | .null => 0
  | .array elements => elements.length
  | .object members => members.length
  | _ => 1

/-- `operator[]` with an index below `size()`: an element of an array. On a
`null` the non-const operator makes an array of nulls; any other value
throws. -/
def atIndex : Json → Nat → Except Thrown Json
  | .array elements, i => .ok (elements.getD i .null)
  | .null, _ => .ok .null
  | _, _ => .error (.typeError 305)

/-- The `std::string` a value converts to: a string is itself, any other
value throws. -/
def getString : Json → Except Thrown String
  | .string value => .ok value
  | _ => .error (.typeError 302)

/-- `json == "text"`: only the string of that text is equal. -/
def eqString : Json → String → Bool
  | .string value, text => value == text
  | _, _ => false

end Json

/-- The characters `isspace` is true of in the C locale. -/
def isSpace (c : Char) : Bool :=
  c == ' ' || c == '\t' || c == '\n' || c.toNat == 11 || c.toNat == 12 || c == '\r'

/-- The number the decimal digits spell. -/
def digitsValue (digits : List Char) : Nat :=
  digits.foldl (fun n c => 10 * n + (c.toNat - '0'.toNat)) 0

/-- `std::stol` in base 10: leading blanks, a sign, and the longest run of
digits after them; what follows is not read. -/
def stol (str : String) : Except Thrown Int :=
  let cs := str.toList.dropWhile isSpace
  let (negative, rest) : Bool × List Char :=
    match cs with
    | '-' :: rest => (true, rest)
    | '+' :: rest => (false, rest)
    | rest => (false, rest)
  let digits := rest.takeWhile Char.isDigit
  if digits.isEmpty then .error .invalidArgument
  else
    let value : Int := if negative then -(digitsValue digits : Int) else digitsValue digits
    if value < -2 ^ 63 ∨ 2 ^ 63 ≤ value then .error .outOfRange else .ok value

def scPrivateKeyFetcherProvider : Nat := 0x0222

def scPrivateKeyFetcherProviderPublicKeysetHandleNotFound : StatusCode :=
  makeErrorCode scPrivateKeyFetcherProvider 0x0002

def scPrivateKeyFetcherProviderResourceNameNotFound : StatusCode :=
  makeErrorCode scPrivateKeyFetcherProvider 0x0003

def scPrivateKeyFetcherProviderEncryptionKeyTypeNotFound : StatusCode :=
  makeErrorCode scPrivateKeyFetcherProvider 0x0004

def scPrivateKeyFetcherProviderExpirationTimeNotFound : StatusCode :=
  makeErrorCode scPrivateKeyFetcherProvider 0x0005

def scPrivateKeyFetcherProviderKeyDataNotFound : StatusCode :=
  makeErrorCode scPrivateKeyFetcherProvider 0x0006

def scPrivateKeyFetcherProviderJsonTagNotFound : StatusCode :=
  makeErrorCode scPrivateKeyFetcherProvider 0x0007

def scPrivateKeyFetcherProviderInvalidEncryptionKeyType : StatusCode :=
  makeErrorCode scPrivateKeyFetcherProvider 0x0008

def scPrivateKeyFetcherProviderKeyMaterialNotFound : StatusCode :=
  makeErrorCode scPrivateKeyFetcherProvider 0x0009

def scPrivateKeyFetcherProviderPublicKeyMaterialNotFound : StatusCode :=
  makeErrorCode scPrivateKeyFetcherProvider 0x000A

def scPrivateKeyFetcherProviderCreationTimeNotFound : StatusCode :=
  makeErrorCode scPrivateKeyFetcherProvider 0x000B

def scPrivateKeyClientProviderInvalidResourceName : StatusCode :=
  makeErrorCode scPrivateKeyFetcherProvider 0x000C

def kEncryptionKeyPrefix : String := "encryptionKeys/"
def kEncryptionKeysLabel : String := "keys"
def kResourceNameLabel : String := "name"
def kEncryptionKeyType : String := "encryptionKeyType"
def kMultiPartyEnum : String := "MULTI_PARTY_HYBRID_EVEN_KEYSPLIT"
def kSinglePartyEnum : String := "SINGLE_PARTY_HYBRID_KEY"
def kPublicKeysetHandle : String := "publicKeysetHandle"
def kPublicKeyMaterial : String := "publicKeyMaterial"
def kExpirationTime : String := "expirationTime"
def kCreationTime : String := "creationTime"
def kKeyData : String := "keyData"
def kPublicKeySignature : String := "publicKeySignature"
def kKeyEncryptionKeyUri : String := "keyEncryptionKeyUri"
def kKeyMaterial : String := "keyMaterial"

structure KeyData where
  publicKeySignature : String
  keyEncryptionKeyUri : String
  keyMaterial : String
  deriving DecidableEq, Repr

/-- `EncryptionKey`; the times are `core::Timestamp`, a `uint64_t`. -/
structure EncryptionKey where
  keyId : String
  resourceName : String
  encryptionKeyType : PrivateKeyClient.EncryptionKeyType
  publicKeysetHandle : String
  publicKeyMaterial : String
  expirationTimeInMs : UInt64
  creationTimeInMs : UInt64
  keyData : List KeyData
  deriving DecidableEq, Repr

structure PrivateKeyFetchingResponse where
  encryptionKeys : List EncryptionKey
  deriving DecidableEq, Repr

/-- What a function returns: a failure it returns early, or its value; and
an exception that leaves it. -/
abbrev Parse := ExceptT ExecutionResult (Except Thrown)

namespace PrivateKeyFetchingClientUtils

/-- `ExtractKeyId`: the resource name after the prefix it must start with. -/
def extractKeyId (resourceName : String) : Parse String :=
  if kEncryptionKeyPrefix.isPrefixOf resourceName then
    pure (resourceName.drop kEncryptionKeyPrefix.length).copy
  else throw (failureExecutionResult scPrivateKeyClientProviderInvalidResourceName)

/-- `ParseJsonValue` into a string: the member's value converted. -/
def parseJsonValue (jsonResponse : Json) (jsonTag : String) : Parse String :=
  match jsonResponse.find jsonTag with
  | none => throw (failureExecutionResult scPrivateKeyFetcherProviderJsonTagNotFound)
  | some value => ExceptT.lift value.getString

def parseEncryptionKeyType (jsonResponse : Json) (typeTag : String) :
    Parse PrivateKeyClient.EncryptionKeyType :=
  match jsonResponse.find typeTag with
  | none => throw (failureExecutionResult scPrivateKeyFetcherProviderEncryptionKeyTypeNotFound)
  | some value =>
      if value.eqString kMultiPartyEnum then pure .kMultiPartyHybridEvenKeysplit
      else if value.eqString kSinglePartyEnum then pure .kSinglePartyHybridKey
      else throw (failureExecutionResult scPrivateKeyFetcherProviderInvalidEncryptionKeyType)

/-- One chunk of key data: its three strings, read in the source's order. -/
def parseKeyDataChunk (jsonChunk : Json) : Parse KeyData := do
  let kekUri ← parseJsonValue jsonChunk kKeyEncryptionKeyUri
  let keyMaterial ← parseJsonValue jsonChunk kKeyMaterial
  let publicKeySignature ← parseJsonValue jsonChunk kPublicKeySignature
  pure ⟨publicKeySignature, kekUri, keyMaterial⟩

/-- The loop of `ParseKeyData` from the `i`-th chunk on, with `count`
chunks left and the key data read so far. -/
def parseKeyDataLoop (keyDataJson : Json) : Nat → Nat → List KeyData → Parse (List KeyData)
  | 0, _, keyDataList => pure keyDataList
  | count + 1, i, keyDataList => do
      let jsonChunk ← ExceptT.lift (keyDataJson.atIndex i)
      let keyData ← parseKeyDataChunk jsonChunk
      parseKeyDataLoop keyDataJson count (i + 1) (keyDataList ++ [keyData])

/-- `ParseKeyData`: the chunks, one of which must have both a key encryption
key URI and key material. -/
def parseKeyData (jsonResponse : Json) (keyDataTag : String) : Parse (List KeyData) :=
  match jsonResponse.find keyDataTag with
  | none => throw (failureExecutionResult scPrivateKeyFetcherProviderKeyDataNotFound)
  | some keyDataJson => do
      let keyDataList ← parseKeyDataLoop keyDataJson keyDataJson.size 0 []
      -- Must have one pair of key_encryption_key_uri and key_material.
      if keyDataList.any (fun keyData => !keyData.keyMaterial.isEmpty &&
          !keyData.keyEncryptionKeyUri.isEmpty) then pure keyDataList
      else throw (failureExecutionResult scPrivateKeyFetcherProviderKeyMaterialNotFound)

/-- A failure of `ParseJsonValue` returned as the caller's own. -/
def orFail (statusCode : StatusCode) (x : Parse α) : Parse α :=
  x.adapt fun _ => failureExecutionResult statusCode

/-- `ParseEncryptionKey`: the key's fields in the source's order; the
response with the key appended. -/
def parseEncryptionKey (jsonKey : Json) (response : PrivateKeyFetchingResponse) :
    Parse PrivateKeyFetchingResponse := do
  let name ← orFail scPrivateKeyFetcherProviderResourceNameNotFound
    (parseJsonValue jsonKey kResourceNameLabel)
  let handle ← orFail scPrivateKeyFetcherProviderPublicKeysetHandleNotFound
    (parseJsonValue jsonKey kPublicKeysetHandle)
  let publicKeyMaterial ← orFail scPrivateKeyFetcherProviderPublicKeyMaterialNotFound
    (parseJsonValue jsonKey kPublicKeyMaterial)
  let type ← parseEncryptionKeyType jsonKey kEncryptionKeyType
  let expirationTime ← orFail scPrivateKeyFetcherProviderExpirationTimeNotFound
    (parseJsonValue jsonKey kExpirationTime)
  let expirationTimeInMs ← ExceptT.lift (stol expirationTime)
  let creationTime ← orFail scPrivateKeyFetcherProviderCreationTimeNotFound
    (parseJsonValue jsonKey kCreationTime)
  let creationTimeInMs ← ExceptT.lift (stol creationTime)
  let keyData ← parseKeyData jsonKey kKeyData
  let keyId ← extractKeyId name
  pure ⟨response.encryptionKeys ++
    [⟨keyId, name, type, handle, publicKeyMaterial, UInt64.ofInt expirationTimeInMs,
      UInt64.ofInt creationTimeInMs, keyData⟩]⟩

/-- The loop of `ParsePrivateKey` over the keys from the `i`-th on, with
`count` keys left: the first failure is returned with the keys read before
it in the response. -/
def parseKeysLoop (jsonKeys : Json) :
    Nat → Nat → PrivateKeyFetchingResponse → Except Thrown (ExecutionResult × PrivateKeyFetchingResponse)
  | 0, _, response => pure (successExecutionResult, response)
  | count + 1, i, response => do
      let oneKeyJson ← jsonKeys.atIndex i
      match ← (parseEncryptionKey oneKeyJson response).run with
      | .error result => pure (result, response)
      | .ok response => parseKeysLoop jsonKeys count (i + 1) response

section Parse

variable (parse : List UInt8 → Except Thrown Json)

/-- `ParsePrivateKey` of a body, with `nlohmann::json::parse` as `parse`. -/
def parsePrivateKey (body : List UInt8) (response : PrivateKeyFetchingResponse) :
    Except Thrown (ExecutionResult × PrivateKeyFetchingResponse) := do
  let jsonResponse ← parse body
  match jsonResponse.find kEncryptionKeysLabel with
  | none =>
      -- For fetching encryption key by ID, will return only one key.
      match ← (parseEncryptionKey jsonResponse response).run with
      | .error result => pure (result, response)
      | .ok response => pure (successExecutionResult, response)
  | some jsonKeys => parseKeysLoop jsonKeys jsonKeys.size 0 response

end Parse

end PrivateKeyFetchingClientUtils

/-! ## What a successful read reads -/

/-- A chunk of key data as `ParseKeyData` accepts it, and what it reads. -/
structure IsKeyData (jsonChunk : Json) (keyData : KeyData) : Prop where
  kekUri : jsonChunk.find kKeyEncryptionKeyUri = some (.string keyData.keyEncryptionKeyUri)
  keyMaterial : jsonChunk.find kKeyMaterial = some (.string keyData.keyMaterial)
  publicKeySignature :
    jsonChunk.find kPublicKeySignature = some (.string keyData.publicKeySignature)

/-- An encryption key as `ParseEncryptionKey` accepts it, and the key it
reads: every field a string, the type one of the two names, the times what
`std::stol` reads of their text, an array of key data one of which has both
a URI and key material, and the name after the prefix as the key id. -/
structure IsEncryptionKey (jsonKey : Json) (key : EncryptionKey) : Prop where
  name : jsonKey.find kResourceNameLabel = some (.string key.resourceName)
  handle : jsonKey.find kPublicKeysetHandle = some (.string key.publicKeysetHandle)
  publicKeyMaterial : jsonKey.find kPublicKeyMaterial = some (.string key.publicKeyMaterial)
  type :
    jsonKey.find kEncryptionKeyType = some (.string kMultiPartyEnum) ∧
        key.encryptionKeyType = .kMultiPartyHybridEvenKeysplit ∨
      jsonKey.find kEncryptionKeyType = some (.string kSinglePartyEnum) ∧
        key.encryptionKeyType = .kSinglePartyHybridKey
  expirationTime : ∃ text value, jsonKey.find kExpirationTime = some (.string text) ∧
    stol text = .ok value ∧ key.expirationTimeInMs = UInt64.ofInt value
  creationTime : ∃ text value, jsonKey.find kCreationTime = some (.string text) ∧
    stol text = .ok value ∧ key.creationTimeInMs = UInt64.ofInt value
  keyData : ∃ chunks, jsonKey.find kKeyData = some (.array chunks) ∧
    List.Forall₂ IsKeyData chunks key.keyData ∧
    ∃ d ∈ key.keyData, d.keyMaterial ≠ "" ∧ d.keyEncryptionKeyUri ≠ ""
  keyId : kEncryptionKeyPrefix.isPrefixOf key.resourceName ∧
    key.keyId = (key.resourceName.drop kEncryptionKeyPrefix.length).copy

/-- The values of `keys` the loop of `ParsePrivateKey` reads through, and
the keys it reads: an array of keys, or none in a `null` or an empty object
(whose `size()` is 0). -/
def IsKeyList : Json → List EncryptionKey → Prop
  | .array elements, keys => List.Forall₂ IsEncryptionKey elements keys
  | .null, keys => keys = []
  | .object [], keys => keys = []
  | _, _ => False

/-- A response `ParsePrivateKey` accepts, and the keys it reads: one key
without `keys`, or the keys of `keys`. -/
def IsKeyResponse (json : Json) (keys : List EncryptionKey) : Prop :=
  match json.find kEncryptionKeysLabel with
  | none => ∃ key, IsEncryptionKey json key ∧ keys = [key]
  | some jsonKeys => IsKeyList jsonKeys keys

namespace PrivateKeyFetchingClientUtils

open Record

section Steps

theorem run_lift_eq_ok_ok {α : Type} {y : Except Thrown α} {a : α} :
    (ExceptT.lift y : Parse α).run = .ok (.ok a) ↔ y = .ok a := by
  rw [ExceptT.run_lift]
  cases y <;> simp [Functor.map, Except.map]

theorem run_orFail_eq_ok_ok {α : Type} {statusCode : StatusCode} {x : Parse α} {a : α} :
    (orFail statusCode x).run = .ok (.ok a) ↔ x.run = .ok (.ok a) := by
  rw [orFail, ExceptT.run_adapt]
  rcases x.run with e | (r | b) <;> simp [Functor.map, Except.map, Except.mapError]

theorem run_throw_ne_ok {α : Type} {r : ExecutionResult} {a : α} :
    (throw r : Parse α).run ≠ .ok (.ok a) := by
  rw [ExceptT.run_throw]
  simp [pure, Except.pure]

theorem getString_eq_ok {value : Json} {str : String} :
    value.getString = .ok str ↔ value = .string str := by
  cases value <;> simp [Json.getString]

theorem run_parseJsonValue_eq_ok_ok {jsonResponse : Json} {jsonTag str : String} :
    (parseJsonValue jsonResponse jsonTag).run = .ok (.ok str) ↔
      jsonResponse.find jsonTag = some (.string str) := by
  unfold parseJsonValue
  cases jsonResponse.find jsonTag with
  | none => simpa using run_throw_ne_ok
  | some value => rw [run_lift_eq_ok_ok, getString_eq_ok, Option.some.injEq]

theorem eqString_eq_true {value : Json} {text : String} :
    value.eqString text = true ↔ value = .string text := by
  cases value <;> simp [Json.eqString]

theorem run_pure_eq_ok_ok {α : Type} {a b : α} : (pure a : Parse α).run = .ok (.ok b) ↔ a = b := by
  rw [ExceptT.run_pure]
  simp [pure, Except.pure]

theorem multi_ne_single : kMultiPartyEnum ≠ kSinglePartyEnum := by decide

theorem run_parseEncryptionKeyType_eq_ok_ok {jsonResponse : Json} {typeTag : String}
    {type : PrivateKeyClient.EncryptionKeyType} :
    (parseEncryptionKeyType jsonResponse typeTag).run = .ok (.ok type) ↔
      jsonResponse.find typeTag = some (.string kMultiPartyEnum) ∧
          type = .kMultiPartyHybridEvenKeysplit ∨
        jsonResponse.find typeTag = some (.string kSinglePartyEnum) ∧
          type = .kSinglePartyHybridKey := by
  unfold parseEncryptionKeyType
  cases jsonResponse.find typeTag with
  | none => simpa using run_throw_ne_ok
  | some value =>
      simp only [Option.some.injEq]
      by_cases hmulti : value = .string kMultiPartyEnum
      · rw [if_pos (eqString_eq_true.mpr hmulti), run_pure_eq_ok_ok]
        simp [hmulti, multi_ne_single, eq_comm]
      · rw [if_neg (mt eqString_eq_true.mp hmulti)]
        by_cases hsingle : value = .string kSinglePartyEnum
        · rw [if_pos (eqString_eq_true.mpr hsingle), run_pure_eq_ok_ok]
          simp [hsingle, multi_ne_single, eq_comm]
        · rw [if_neg (mt eqString_eq_true.mp hsingle)]
          simpa [hmulti, hsingle] using run_throw_ne_ok

theorem run_extractKeyId_eq_ok_ok {resourceName keyId : String} :
    (extractKeyId resourceName).run = .ok (.ok keyId) ↔
      kEncryptionKeyPrefix.isPrefixOf resourceName ∧
        keyId = (resourceName.drop kEncryptionKeyPrefix.length).copy := by
  unfold extractKeyId
  by_cases hstarts : kEncryptionKeyPrefix.isPrefixOf resourceName
  · rw [if_pos hstarts, run_pure_eq_ok_ok]
    simp [hstarts, eq_comm]
  · rw [if_neg hstarts]
    simpa [hstarts] using run_throw_ne_ok

theorem run_parseKeyDataChunk_eq_ok_ok {jsonChunk : Json} {keyData : KeyData} :
    (parseKeyDataChunk jsonChunk).run = .ok (.ok keyData) ↔ IsKeyData jsonChunk keyData := by
  simp only [parseKeyDataChunk, run_bind_eq_ok_ok, run_parseJsonValue_eq_ok_ok, ExceptT.run_pure]
  constructor
  · rintro ⟨kekUri, hkek, keyMaterial, hmat, signature, hsig, heq⟩
    cases heq
    exact ⟨hkek, hmat, hsig⟩
  · rintro ⟨hkek, hmat, hsig⟩
    exact ⟨_, hkek, _, hmat, _, hsig, rfl⟩

/-- Over an array, the loop of `ParseKeyData` reads every chunk from the
`i`-th on. -/
theorem run_parseKeyDataLoop_array (rest : List Json) :
    ∀ (pre : List Json) (keyDataList out : List KeyData),
      (parseKeyDataLoop (.array (pre ++ rest)) rest.length pre.length keyDataList).run =
          .ok (.ok out) ↔
        ∃ kds, List.Forall₂ IsKeyData rest kds ∧ out = keyDataList ++ kds := by
  induction rest with
  | nil =>
      intro pre keyDataList out
      rw [List.length_nil, parseKeyDataLoop, run_pure_eq_ok_ok]
      simp [eq_comm]
  | cons chunk rest ih =>
      intro pre keyDataList out
      have hat : (Json.array (pre ++ chunk :: rest)).atIndex pre.length = .ok chunk := by
        simp [Json.atIndex]
      -- the loop from the next chunk, as the induction hypothesis reads it
      have hnext : ∀ kd, (parseKeyDataLoop (.array (pre ++ chunk :: rest)) rest.length
          (pre.length + 1) (keyDataList ++ [kd])).run = .ok (.ok out) ↔
            ∃ kds, List.Forall₂ IsKeyData rest kds ∧ out = keyDataList ++ [kd] ++ kds := by
        intro kd
        have h := ih (pre ++ [chunk]) (keyDataList ++ [kd]) out
        rwa [List.append_assoc, List.singleton_append, List.length_append,
          List.length_singleton] at h
      rw [List.length_cons, parseKeyDataLoop]
      simp only [run_bind_eq_ok_ok, run_lift_eq_ok_ok, hat, Except.ok.injEq, exists_eq_left',
        run_parseKeyDataChunk_eq_ok_ok, hnext]
      constructor
      · rintro ⟨kd, hkd, kds, hkds, rfl⟩
        exact ⟨kd :: kds, .cons hkd hkds, by simp⟩
      · rintro ⟨kds, hkds, rfl⟩
        cases hkds with
        | cons hkd hrest => exact ⟨_, hkd, _, hrest, by simp⟩

/-- On a value other than an array, the loop reads nothing or throws. -/
theorem run_parseKeyDataLoop_of_not_array {keyDataJson : Json}
    (h : ∀ chunks, keyDataJson ≠ .array chunks) :
    (parseKeyDataLoop keyDataJson keyDataJson.size 0 []).run = .ok (.ok []) ∨
      (parseKeyDataLoop keyDataJson keyDataJson.size 0 []).run = .error (.typeError 305) := by
  cases keyDataJson with
  | array chunks => exact absurd rfl (h chunks)
  | null => exact .inl rfl
  | object members =>
      cases members with
      | nil => exact .inl rfl
      | cons member members => exact .inr rfl
  | boolean value => exact .inr rfl
  | number literal => exact .inr rfl
  | string value => exact .inr rfl

theorem any_keyMaterial_iff (keyDataList : List KeyData) :
    (keyDataList.any fun keyData =>
        !keyData.keyMaterial.isEmpty && !keyData.keyEncryptionKeyUri.isEmpty) = true ↔
      ∃ d ∈ keyDataList, d.keyMaterial ≠ "" ∧ d.keyEncryptionKeyUri ≠ "" := by
  simp

/-- `ParseKeyData` succeeds exactly on an array of chunks it accepts, one of
which has both a URI and key material. -/
theorem run_parseKeyData_eq_ok_ok {jsonResponse : Json} {keyDataTag : String}
    {keyData : List KeyData} :
    (parseKeyData jsonResponse keyDataTag).run = .ok (.ok keyData) ↔
      ∃ chunks, jsonResponse.find keyDataTag = some (.array chunks) ∧
        List.Forall₂ IsKeyData chunks keyData ∧
        ∃ d ∈ keyData, d.keyMaterial ≠ "" ∧ d.keyEncryptionKeyUri ≠ "" := by
  unfold parseKeyData
  cases jsonResponse.find keyDataTag with
  | none => simpa using run_throw_ne_ok
  | some keyDataJson =>
      -- the check after the loop keeps exactly the lists with both in one chunk
      have hcheck : ∀ l : List KeyData,
          (if l.any (fun keyData => !keyData.keyMaterial.isEmpty &&
              !keyData.keyEncryptionKeyUri.isEmpty) then pure l
            else throw (failureExecutionResult scPrivateKeyFetcherProviderKeyMaterialNotFound) :
              Parse (List KeyData)).run = .ok (.ok keyData) ↔
            l = keyData ∧ ∃ d ∈ keyData, d.keyMaterial ≠ "" ∧ d.keyEncryptionKeyUri ≠ "" := by
        intro l
        by_cases hany : (l.any fun keyData => !keyData.keyMaterial.isEmpty &&
            !keyData.keyEncryptionKeyUri.isEmpty) = true
        · rw [if_pos hany, run_pure_eq_ok_ok]
          constructor
          · rintro rfl
            exact ⟨rfl, (any_keyMaterial_iff l).mp hany⟩
          · exact fun h => h.1
        · rw [if_neg hany]
          refine iff_of_false run_throw_ne_ok ?_
          rintro ⟨rfl, hd⟩
          exact hany ((any_keyMaterial_iff _).mpr hd)
      simp only [run_bind_eq_ok_ok, hcheck, Option.some.injEq]
      by_cases harray : ∃ chunks, keyDataJson = .array chunks
      · obtain ⟨chunks, rfl⟩ := harray
        have hloop := run_parseKeyDataLoop_array chunks [] []
        simp only [List.nil_append, List.length_nil] at hloop
        simp only [Json.size, hloop, Json.array.injEq, exists_eq_left']
        constructor
        · rintro ⟨_, ⟨kds, hkds, rfl⟩, rfl, hd⟩
          exact ⟨hkds, hd⟩
        · rintro ⟨hkds, hd⟩
          exact ⟨_, ⟨_, hkds, rfl⟩, rfl, hd⟩
      · -- any other value reads no chunk, so the check fails, or it throws
        have hnot : ∀ chunks, keyDataJson ≠ .array chunks := fun chunks h => harray ⟨chunks, h⟩
        refine iff_of_false ?_ fun ⟨chunks, h, _⟩ => hnot chunks h
        rintro ⟨l, hl, rfl, hd⟩
        rcases run_parseKeyDataLoop_of_not_array hnot with h | h
        · rw [h, Except.ok.injEq, Except.ok.injEq] at hl
          subst hl
          simp at hd
        · rw [h] at hl
          cases hl

/-- `ParseEncryptionKey` succeeds exactly on a key it accepts, and appends
the key it reads. -/
theorem run_parseEncryptionKey_eq_ok_ok {jsonKey : Json}
    {response response' : PrivateKeyFetchingResponse} :
    (parseEncryptionKey jsonKey response).run = .ok (.ok response') ↔
      ∃ key, IsEncryptionKey jsonKey key ∧ response' = ⟨response.encryptionKeys ++ [key]⟩ := by
  simp only [parseEncryptionKey, run_bind_eq_ok_ok, run_orFail_eq_ok_ok,
    run_parseJsonValue_eq_ok_ok, run_parseEncryptionKeyType_eq_ok_ok, run_lift_eq_ok_ok,
    run_parseKeyData_eq_ok_ok, run_extractKeyId_eq_ok_ok, run_pure_eq_ok_ok]
  constructor
  · rintro ⟨name, hname, handle, hhandle, material, hmaterial, type, htype, expText, hexp,
      expValue, hstolExp, creText, hcre, creValue, hstolCre, keyData, hkeyData, keyId,
      ⟨hstarts, rfl⟩, rfl⟩
    refine ⟨⟨_, name, type, handle, material, UInt64.ofInt expValue, UInt64.ofInt creValue,
      keyData⟩, ?_, rfl⟩
    exact ⟨hname, hhandle, hmaterial, htype, ⟨expText, expValue, hexp, hstolExp, rfl⟩,
      ⟨creText, creValue, hcre, hstolCre, rfl⟩, hkeyData, hstarts, rfl⟩
  · rintro ⟨key, ⟨hname, hhandle, hmaterial, htype, ⟨expText, expValue, hexp, hstolExp, hexpKey⟩,
      ⟨creText, creValue, hcre, hstolCre, hcreKey⟩, hkeyData, hstarts, hkeyId⟩, rfl⟩
    refine ⟨_, hname, _, hhandle, _, hmaterial, _, htype, _, hexp, _, hstolExp, _, hcre, _,
      hstolCre, _, hkeyData, _, ⟨hstarts, hkeyId⟩, ?_⟩
    rw [← hexpKey, ← hcreKey]

end Steps

/-! ## Early returns are failures -/

section EarlyReturns

/-- Whatever `x` returns early is a failure. -/
def ReturnsFailure {α : Type} (x : Parse α) : Prop :=
  ∀ r, x.run = .ok (.error r) → r ≠ successExecutionResult

variable {α β : Type}

theorem ReturnsFailure.bind {x : Parse α} {f : α → Parse β} (hx : ReturnsFailure x)
    (hf : ∀ a, ReturnsFailure (f a)) : ReturnsFailure (x >>= f) := by
  intro r hr
  rw [ExceptT.run_bind] at hr
  rcases hxr : x.run with e | (r' | a)
  · rw [hxr] at hr
    cases hr
  · rw [hxr] at hr
    cases hr
    exact hx r hxr
  · rw [hxr] at hr
    exact hf a r hr

theorem returnsFailure_pure (a : α) : ReturnsFailure (pure a : Parse α) := by
  intro r hr
  cases hr

theorem returnsFailure_throw (statusCode : StatusCode) :
    ReturnsFailure (throw (failureExecutionResult statusCode) : Parse α) := by
  intro r hr
  cases hr
  exact failureExecutionResult_ne_success statusCode

theorem returnsFailure_lift (y : Except Thrown α) : ReturnsFailure (ExceptT.lift y : Parse α) := by
  intro r hr
  rw [ExceptT.run_lift] at hr
  cases y <;> cases hr

theorem returnsFailure_orFail (statusCode : StatusCode) (x : Parse α) :
    ReturnsFailure (orFail statusCode x) := by
  intro r hr
  rw [orFail, ExceptT.run_adapt] at hr
  rcases hxr : x.run with e | (r' | a) <;>
    simp [hxr, Functor.map, Except.map, Except.mapError] at hr
  rw [← hr]
  exact failureExecutionResult_ne_success statusCode

theorem returnsFailure_parseJsonValue (jsonResponse : Json) (jsonTag : String) :
    ReturnsFailure (parseJsonValue jsonResponse jsonTag) := by
  unfold parseJsonValue
  cases jsonResponse.find jsonTag with
  | none => exact returnsFailure_throw _
  | some value => exact returnsFailure_lift _

theorem returnsFailure_parseEncryptionKeyType (jsonResponse : Json) (typeTag : String) :
    ReturnsFailure (parseEncryptionKeyType jsonResponse typeTag) := by
  unfold parseEncryptionKeyType
  cases jsonResponse.find typeTag with
  | none => exact returnsFailure_throw _
  | some value =>
      dsimp only
      split
      · exact returnsFailure_pure _
      · split
        · exact returnsFailure_pure _
        · exact returnsFailure_throw _

theorem returnsFailure_parseKeyDataChunk (jsonChunk : Json) :
    ReturnsFailure (parseKeyDataChunk jsonChunk) :=
  .bind (returnsFailure_parseJsonValue _ _) fun _ =>
    .bind (returnsFailure_parseJsonValue _ _) fun _ =>
      .bind (returnsFailure_parseJsonValue _ _) fun _ => returnsFailure_pure _

theorem returnsFailure_parseKeyDataLoop (keyDataJson : Json) (count : Nat) :
    ∀ i keyDataList, ReturnsFailure (parseKeyDataLoop keyDataJson count i keyDataList) := by
  induction count with
  | zero => exact fun _ keyDataList => returnsFailure_pure keyDataList
  | succ count ih =>
      intro i keyDataList
      exact .bind (returnsFailure_lift _) fun _ =>
        .bind (returnsFailure_parseKeyDataChunk _) fun _ => ih _ _

theorem returnsFailure_parseKeyData (jsonResponse : Json) (keyDataTag : String) :
    ReturnsFailure (parseKeyData jsonResponse keyDataTag) := by
  unfold parseKeyData
  cases jsonResponse.find keyDataTag with
  | none => exact returnsFailure_throw _
  | some keyDataJson =>
      refine .bind (returnsFailure_parseKeyDataLoop _ _ _ _) fun keyDataList => ?_
      split
      · exact returnsFailure_pure _
      · exact returnsFailure_throw _

theorem returnsFailure_extractKeyId (resourceName : String) :
    ReturnsFailure (extractKeyId resourceName) := by
  unfold extractKeyId
  split
  · exact returnsFailure_pure _
  · exact returnsFailure_throw _

/-- `ParseEncryptionKey` returns early only with a failure. -/
theorem returnsFailure_parseEncryptionKey (jsonKey : Json) (response : PrivateKeyFetchingResponse) :
    ReturnsFailure (parseEncryptionKey jsonKey response) :=
  .bind (returnsFailure_orFail _ _) fun _ =>
    .bind (returnsFailure_orFail _ _) fun _ =>
      .bind (returnsFailure_orFail _ _) fun _ =>
        .bind (returnsFailure_parseEncryptionKeyType _ _) fun _ =>
          .bind (returnsFailure_orFail _ _) fun _ =>
            .bind (returnsFailure_lift _) fun _ =>
              .bind (returnsFailure_orFail _ _) fun _ =>
                .bind (returnsFailure_lift _) fun _ =>
                  .bind (returnsFailure_parseKeyData _ _) fun _ =>
                    .bind (returnsFailure_extractKeyId _) fun _ => returnsFailure_pure _

end EarlyReturns

/-! ## The keys of a response -/

section Keys

variable {jsonKey : Json} {response response' : PrivateKeyFetchingResponse}

/-- A key is accepted exactly when reading it appends it. -/
theorem isEncryptionKey_iff (response : PrivateKeyFetchingResponse) {key : EncryptionKey} :
    IsEncryptionKey jsonKey key ↔
      (parseEncryptionKey jsonKey response).run = .ok (.ok ⟨response.encryptionKeys ++ [key]⟩) := by
  rw [run_parseEncryptionKey_eq_ok_ok]
  constructor
  · exact fun hkey => ⟨key, hkey, rfl⟩
  · rintro ⟨key', hkey', heq⟩
    simp only [PrivateKeyFetchingResponse.mk.injEq, List.append_cancel_left_eq,
      List.cons.injEq, and_true] at heq
    exact heq ▸ hkey'

/-- A JSON value is read as one key at most. -/
theorem isEncryptionKey_unique {key key' : EncryptionKey} (hkey : IsEncryptionKey jsonKey key)
    (hkey' : IsEncryptionKey jsonKey key') : key = key' := by
  have h := ((isEncryptionKey_iff ⟨[]⟩).mp hkey).symm.trans ((isEncryptionKey_iff ⟨[]⟩).mp hkey')
  simpa using h

/-- A key that reading does not append is not accepted. -/
theorem not_isEncryptionKey_of_run {x : Except Thrown (Except ExecutionResult PrivateKeyFetchingResponse)}
    (hrun : (parseEncryptionKey jsonKey response).run = x) (hx : ∀ r, x ≠ .ok (.ok r))
    (key : EncryptionKey) : ¬IsEncryptionKey jsonKey key :=
  fun hkey => hx _ (hrun ▸ (isEncryptionKey_iff response).mp hkey)

/-- Over an array, the loop of `ParsePrivateKey` succeeds exactly when it
accepts every key from the `i`-th on, and it appends them all. -/
theorem parseKeysLoop_array_eq_success (rest : List Json) :
    ∀ (pre : List Json) (response response' : PrivateKeyFetchingResponse),
      parseKeysLoop (.array (pre ++ rest)) rest.length pre.length response =
          .ok (successExecutionResult, response') ↔
        ∃ keys, List.Forall₂ IsEncryptionKey rest keys ∧
          response' = ⟨response.encryptionKeys ++ keys⟩ := by
  induction rest with
  | nil =>
      intro pre response response'
      simp only [List.length_nil, parseKeysLoop, pure, Except.pure, Except.ok.injEq,
        Prod.mk.injEq, true_and, List.forall₂_nil_left_iff, exists_eq_left, List.append_nil]
      constructor <;> rintro rfl <;> rfl
  | cons jsonKey rest ih =>
      intro pre response response'
      have hat : (Json.array (pre ++ jsonKey :: rest)).atIndex pre.length = .ok jsonKey := by
        simp [Json.atIndex]
      -- the loop from the next key, as the induction hypothesis reads it
      have hnext : ∀ r, parseKeysLoop (.array (pre ++ jsonKey :: rest)) rest.length
          (pre.length + 1) r = .ok (successExecutionResult, response') ↔
            ∃ keys, List.Forall₂ IsEncryptionKey rest keys ∧
              response' = ⟨r.encryptionKeys ++ keys⟩ := by
        intro r
        have h := ih (pre ++ [jsonKey]) r response'
        rwa [List.append_assoc, List.singleton_append, List.length_append,
          List.length_singleton] at h
      -- a key that is not read cannot head the keys read
      have hnot : ∀ x, (parseEncryptionKey jsonKey response).run = x →
          (∀ r, x ≠ .ok (.ok r)) →
            ¬∃ keys, List.Forall₂ IsEncryptionKey (jsonKey :: rest) keys ∧
              response' = ⟨response.encryptionKeys ++ keys⟩ := by
        rintro x hrun hx ⟨_, hkeys, -⟩
        cases hkeys with
        | cons hkey _ => exact not_isEncryptionKey_of_run hrun hx _ hkey
      rw [List.length_cons, parseKeysLoop, hat]
      simp only [bind, Except.bind]
      rcases hrun : (parseEncryptionKey jsonKey response).run with e | (r | response₁)
      · -- an exception leaves the loop
        exact iff_of_false (by simp) (hnot _ hrun (by simp))
      · -- an early failure is the loop's result
        have hfail := returnsFailure_parseEncryptionKey jsonKey response r hrun
        exact iff_of_false (by simp [pure, Except.pure, hfail]) (hnot _ hrun (by simp))
      · -- the key is appended and the loop goes on
        obtain ⟨key, hkey, rfl⟩ := run_parseEncryptionKey_eq_ok_ok.mp hrun
        simp only [hnext]
        constructor
        · rintro ⟨keys, hkeys, rfl⟩
          exact ⟨key :: keys, .cons hkey hkeys, by simp⟩
        · rintro ⟨_, hkeys, rfl⟩
          cases hkeys with
          | cons hkey' hrest =>
              rw [isEncryptionKey_unique hkey hkey']
              exact ⟨_, hrest, by simp⟩
/-- Whatever the value of `keys`, the loop of `ParsePrivateKey` succeeds
exactly on a list of keys it accepts. -/
theorem parseKeysLoop_eq_success_iff (jsonKeys : Json) :
    parseKeysLoop jsonKeys jsonKeys.size 0 response = .ok (successExecutionResult, response') ↔
      ∃ keys, IsKeyList jsonKeys keys ∧ response' = ⟨response.encryptionKeys ++ keys⟩ := by
  -- no key to read: the response is as it was
  have hnone : parseKeysLoop jsonKeys 0 0 response = .ok (successExecutionResult, response') ↔
      ∃ keys : List EncryptionKey, keys = [] ∧ response' = ⟨response.encryptionKeys ++ keys⟩ := by
    simp only [parseKeysLoop, pure, Except.pure, Except.ok.injEq, Prod.mk.injEq, true_and,
      exists_eq_left, List.append_nil]
    constructor <;> rintro rfl <;> rfl
  -- `operator[]` on a value that is neither an array nor `null` throws
  have hthrow : ∀ count, jsonKeys.atIndex 0 = .error (.typeError 305) →
      parseKeysLoop jsonKeys (count + 1) 0 response ≠ .ok (successExecutionResult, response') := by
    intro count hat
    simp [parseKeysLoop, hat, bind, Except.bind]
  cases jsonKeys with
  | array elements =>
      simpa [Json.size, IsKeyList] using parseKeysLoop_array_eq_success elements [] response response'
  | null => exact hnone
  | object members =>
      cases members with
      | nil => exact hnone
      | cons member members =>
          exact iff_of_false (hthrow _ rfl) (by simp [IsKeyList])
  | boolean value => exact iff_of_false (hthrow 0 rfl) (by simp [IsKeyList])
  | number literal => exact iff_of_false (hthrow 0 rfl) (by simp [IsKeyList])
  | string value => exact iff_of_false (hthrow 0 rfl) (by simp [IsKeyList])

section Parse

variable (parse : List UInt8 → Except Thrown Json)

/-- `ParsePrivateKey` succeeds exactly on a body that parses as a response it
accepts, and appends the keys it reads. -/
theorem parsePrivateKey_eq_success_iff {body : List UInt8} :
    parsePrivateKey parse body response = .ok (successExecutionResult, response') ↔
      ∃ json, parse body = .ok json ∧
        ∃ keys, IsKeyResponse json keys ∧ response' = ⟨response.encryptionKeys ++ keys⟩ := by
  unfold parsePrivateKey
  rcases hparse : parse body with e | json
  · simp [bind, Except.bind]
  · simp only [bind, Except.bind, Except.ok.injEq, exists_eq_left', IsKeyResponse]
    cases json.find kEncryptionKeysLabel with
    | some jsonKeys => exact parseKeysLoop_eq_success_iff jsonKeys
    | none =>
        -- one key, read as the loop reads each of its keys
        rcases hrun : (parseEncryptionKey json response).run with e | (r | response₁)
        · refine iff_of_false (by simp) ?_
          rintro ⟨_, ⟨key, hkey, -⟩, -⟩
          exact not_isEncryptionKey_of_run hrun (by simp) key hkey
        · have hfail := returnsFailure_parseEncryptionKey json response r hrun
          refine iff_of_false (by simp [pure, Except.pure, hfail]) ?_
          rintro ⟨_, ⟨key, hkey, -⟩, -⟩
          exact not_isEncryptionKey_of_run hrun (by simp) key hkey
        · obtain ⟨key, hkey, rfl⟩ := run_parseEncryptionKey_eq_ok_ok.mp hrun
          simp only [pure, Except.pure, Except.ok.injEq, Prod.mk.injEq, true_and]
          constructor
          · rintro rfl
            exact ⟨[key], ⟨key, hkey, rfl⟩, rfl⟩
          · rintro ⟨_, ⟨key', hkey', rfl⟩, rfl⟩
            rw [isEncryptionKey_unique hkey hkey']

end Parse
end Keys

/-! ## Where `ParsePrivateKey` fails the process or keeps keys -/

section Departures

/-- A key the fetcher accepts, with one chunk of key data. -/
def acceptedKeyJson : Json :=
  .object [(kResourceNameLabel, .string "encryptionKeys/k"), (kPublicKeysetHandle, .string "h"),
    (kPublicKeyMaterial, .string "m"), (kEncryptionKeyType, .string kSinglePartyEnum),
    (kExpirationTime, .string "1"), (kCreationTime, .string "0"),
    (kKeyData, .array [.object [(kKeyEncryptionKeyUri, .string "u"), (kKeyMaterial, .string "k"),
      (kPublicKeySignature, .string "")]])]

/-- The key read from `acceptedKeyJson`. -/
def acceptedKey : EncryptionKey :=
  ⟨"k", "encryptionKeys/k", .kSinglePartyHybridKey, "h", "m", 1, 0, [⟨"", "u", "k"⟩]⟩

end Departures

end PrivateKeyFetchingClientUtils

end ControlPlane.PrivateKeyFetcher
