import ControlPlane.Core.Common
import ControlPlane.Lib.Record

/-!
# `GcpAuthTokenProvider`: reading a session token

`GcpAuthTokenProvider` (src/cc/cpio/client_providers/auth_token_provider/src/gcp/
gcp_auth_token_provider.cc) asks the metadata server for a token, and its two
callbacks read the answer: `OnGetSessionTokenCallback` a JSON object with the
access token and its lifetime, `OnGetSessionTokenForTargetAudienceCallback` a
JSON web token of three parts whose middle part, decoded from base64, is a
JSON object with the times it was issued at and expires at.

Each callback finishes its context once on every path that returns. Only
`json::parse` is inside a `try`: the conversions `get<uint64_t>()` and
`get<std::string>()` after it throw on a value of another type, out of the
`noexcept` callback, which ends the process. A negative integer converts to
`uint64_t` modulo `2 ^ 64`, and the lifetime, a `std::chrono::seconds`, holds
the `uint64_t` as a signed 64-bit count.

## Implementation notes

A JSON value is `Json`, an object the list of its members. A number is an
integer: nlohmann holds an integer literal in `[-2 ^ 63, 2 ^ 64)` as an
integer, and the conversion is the one of such integers. `json::parse` and
BoringSSL's `EVP_DecodeBase64` are the parameters `parse` and
`evpDecodeBase64`; `none` is a parse error, which the callbacks catch, or a
text that does not decode. What a callback does is `Except Thrown Finish`:
the result and response it finishes its context with, or the exception that
leaves it.
-/

namespace ControlPlane.AuthToken

open Core

/-- A value as `nlohmann::json` holds it. -/
inductive Json
  | null
  | boolean (value : Bool)
  | number (value : Int)
  | string (value : String)
  | array (elements : List Json)
  | object (members : List (String × Json))

/-- `nlohmann::json::type_error`: 302 for a conversion, 305 for `operator[]`. -/
inductive Thrown
  | typeError (id : Nat)
  deriving DecidableEq, Repr

namespace Json

/-- The member of an object; any other value has none. -/
def find : Json → String → Option Json
  | .object members, key => members.lookup key
  | _, _ => none

/-- `contains(key)`. -/
def contains (json : Json) (key : String) : Bool := (json.find key).isSome

/-- The non-const `operator[]` with a key: the member of an object, or the
`null` it inserts for a missing one; `null` becomes an object first; any
other value throws. -/
def atKey : Json → String → Except Thrown Json
  | .object members, key => .ok ((members.lookup key).getD .null)
  | .null, _ => .ok .null
  | _, _ => .error (.typeError 305)

/-- `get<uint64_t>()`: an integer by `static_cast`, modulo `2 ^ 64`; any other
value throws. -/
def getUInt64 : Json → Except Thrown UInt64
  | .number value => .ok (UInt64.ofInt value)
  | _ => .error (.typeError 302)

/-- `get<std::string>()`: a string is itself; any other value throws. -/
def getString : Json → Except Thrown String
  | .string value => .ok value
  | _ => .error (.typeError 302)

theorem atKey_of_find {json value : Json} {key : String} (h : json.find key = some value) :
    json.atKey key = .ok value := by
  cases json <;> simp_all [find, atKey]

theorem all_contains_iff {json : Json} {keys : List String} :
    keys.all json.contains = true ↔ ∀ key ∈ keys, ∃ value, json.find key = some value := by
  simp [contains, Option.isSome_iff_exists]

theorem getUInt64_eq_ok {value : Json} {n : UInt64} :
    value.getUInt64 = .ok n ↔ ∃ i, value = .number i ∧ UInt64.ofInt i = n := by
  cases value <;> simp [getUInt64]

theorem getString_eq_ok {value : Json} {str : String} :
    value.getString = .ok str ↔ value = .string str := by
  cases value <;> simp [getString]

theorem getUInt64_eq_error {value : Json} {thrown : Thrown} :
    value.getUInt64 = .error thrown ↔ thrown = .typeError 302 ∧ ∀ i, value ≠ .number i := by
  cases value <;> simp [getUInt64, eq_comm]

theorem getString_eq_error {value : Json} {thrown : Thrown} :
    value.getString = .error thrown ↔ thrown = .typeError 302 ∧ ∀ str, value ≠ .string str := by
  cases value <;> simp [getString, eq_comm]

end Json

def scGcpInstanceAuthorizerProvider : Nat := 0x020B

def scGcpInstanceAuthorizerProviderBadSessionToken : StatusCode :=
  makeErrorCode scGcpInstanceAuthorizerProvider 0x0002

def scCoreUtilsInvalidBase64EncodingLength : StatusCode := makeErrorCode scCoreUtils 0x0002

def kJsonAccessTokenKey : String := "access_token"
def kJsonTokenExpiryKey : String := "expires_in"
def kJsonTokenTypeKey : String := "token_type"
def kJsonTokenIssuerKey : String := "iss"
def kJsonTokenAudienceKey : String := "aud"
def kJsonTokenSubjectKey : String := "sub"
def kJsonTokenIssuedAtKey : String := "iat"
def kJsonTokenExpiryKeyForTargetAudience : String := "exp"

/-- `GetRequiredJWTComponents`. -/
def requiredJwtComponents : List String :=
  [kJsonAccessTokenKey, kJsonTokenExpiryKey, kJsonTokenTypeKey]

/-- `GetRequiredJWTComponentsForTargetAudienceToken`. -/
def requiredJwtComponentsForTargetAudienceToken : List String :=
  [kJsonTokenIssuerKey, kJsonTokenAudienceKey, kJsonTokenSubjectKey, kJsonTokenIssuedAtKey,
    kJsonTokenExpiryKeyForTargetAudience]

/-- `GetSessionTokenResponse`; the lifetime is a `std::chrono::seconds`, whose
count is an `int64_t`. -/
structure GetSessionTokenResponse where
  sessionToken : String
  tokenLifetimeInSeconds : Int64
  deriving DecidableEq, Repr

/-- The result and response a callback finishes its context with. -/
structure Finish where
  result : ExecutionResult
  response : Option GetSessionTokenResponse
  deriving DecidableEq, Repr

/-- `absl::StrSplit` at a character: the pieces between its occurrences. -/
def strSplit (text : String) (delimiter : Char) : List String :=
  (text.toList.splitOn delimiter).map String.ofList

/-- `PadBase64Encoding`: a length of `1` modulo 4 cannot be padded. -/
def padBase64Encoding (encoded : String) : ExecutionResultOr String :=
  match encoded.utf8ByteSize % 4 with
  | 0 => .value encoded
  | 2 => .value (encoded ++ "==")
  | 3 => .value (encoded ++ "=")
  | _ => .result (failureExecutionResult scCoreUtilsInvalidBase64EncodingLength)

section Callbacks

variable (parse : String → Option Json) (evpDecodeBase64 : String → Option String)

/-- `Base64Decode`. -/
def base64Decode (encoded : String) : Except ExecutionResult String :=
  if encoded.utf8ByteSize % 4 ≠ 0 then
    .error (failureExecutionResult scCoreUtilsInvalidBase64EncodingLength)
  else
    match evpDecodeBase64 encoded with
    | none => .error (failureExecutionResult scCoreUtilsInvalidInput)
    | some decoded => .ok decoded

namespace GcpAuthTokenProvider

/-- `OnGetSessionTokenCallback` on the HTTP result and the response body. -/
def onGetSessionTokenCallback (httpResult : ExecutionResult) (body : String) :
    Except Thrown Finish :=
  if !httpResult.successful then .ok ⟨httpResult, none⟩
  else
    match parse body with
    | none => .ok ⟨retryExecutionResult scGcpInstanceAuthorizerProviderBadSessionToken, none⟩
    | some jsonResponse =>
        if !requiredJwtComponents.all jsonResponse.contains then
          .ok ⟨retryExecutionResult scGcpInstanceAuthorizerProviderBadSessionToken, none⟩
        else do
          -- outside the `try`: a conversion that throws leaves the callback
          let expirySeconds ← (← jsonResponse.atKey kJsonTokenExpiryKey).getUInt64
          let accessToken ← (← jsonResponse.atKey kJsonAccessTokenKey).getString
          pure ⟨successExecutionResult, some ⟨accessToken, expirySeconds.toInt64⟩⟩

/-- `OnGetSessionTokenForTargetAudienceCallback` on the HTTP result and the
response body. `PadBase64Encoding` holds a value exactly when it succeeds. -/
def onGetSessionTokenForTargetAudienceCallback (httpResult : ExecutionResult)
    (responseBody : String) : Except Thrown Finish :=
  if !httpResult.successful then .ok ⟨httpResult, none⟩
  else
    match strSplit responseBody '.' with
    | [_, jwt, _] =>
        match padBase64Encoding jwt with
        | .result result => .ok ⟨result, none⟩
        | .value paddedJwt =>
            match base64Decode evpDecodeBase64 paddedJwt with
            | .error decodeResult => .ok ⟨decodeResult, none⟩
            | .ok decodedJsonStr =>
                match parse decodedJsonStr with
                | none =>
                    .ok ⟨retryExecutionResult scGcpInstanceAuthorizerProviderBadSessionToken, none⟩
                | some jsonWebToken =>
                    if !requiredJwtComponentsForTargetAudienceToken.all jsonWebToken.contains then
                      .ok ⟨retryExecutionResult scGcpInstanceAuthorizerProviderBadSessionToken,
                        none⟩
                    else do
                      let expirySeconds ←
                        (← jsonWebToken.atKey kJsonTokenExpiryKeyForTargetAudience).getUInt64
                      let issuedSeconds ← (← jsonWebToken.atKey kJsonTokenIssuedAtKey).getUInt64
                      pure ⟨successExecutionResult,
                        some ⟨responseBody, (expirySeconds - issuedSeconds).toInt64⟩⟩
    | _ => .ok ⟨retryExecutionResult scGcpInstanceAuthorizerProviderBadSessionToken, none⟩

/-! ## What the callbacks finish with -/

open Record

variable {parse} {httpResult : ExecutionResult} {body : String}

/-- With every required member present, `OnGetSessionTokenCallback` converts
the lifetime and then the token. -/
theorem onGetSessionTokenCallback_of_fields {jsonResponse expiresIn accessToken : Json}
    (hparse : parse body = some jsonResponse)
    (hall : ∀ key ∈ requiredJwtComponents, ∃ value, jsonResponse.find key = some value)
    (hexpires : jsonResponse.find kJsonTokenExpiryKey = some expiresIn)
    (haccess : jsonResponse.find kJsonAccessTokenKey = some accessToken) :
    onGetSessionTokenCallback parse successExecutionResult body = (do
      let expirySeconds ← expiresIn.getUInt64
      let accessToken ← accessToken.getString
      pure ⟨successExecutionResult, some ⟨accessToken, expirySeconds.toInt64⟩⟩) := by
  rw [onGetSessionTokenCallback, successExecutionResult_successful, hparse]
  simp only [Bool.not_true, Bool.false_eq_true, if_false, Json.all_contains_iff.mpr hall,
    Bool.not_true, Json.atKey_of_find hexpires, Json.atKey_of_find haccess, ok_bind]

theorem retryExecutionResult_ne_success (statusCode : StatusCode) :
    retryExecutionResult statusCode ≠ successExecutionResult := by
  simp [retryExecutionResult, successExecutionResult]

/-- Unless the HTTP call succeeded and the body parsed with every required
member, `OnGetSessionTokenCallback` finishes with a failure or a retry and no
response. -/
theorem onGetSessionTokenCallback_of_not_fields
    (h : ¬(httpResult = successExecutionResult ∧ ∃ jsonResponse, parse body = some jsonResponse ∧
      ∀ key ∈ requiredJwtComponents, ∃ value, jsonResponse.find key = some value)) :
    ∃ result, result ≠ successExecutionResult ∧
      onGetSessionTokenCallback parse httpResult body = .ok ⟨result, none⟩ := by
  unfold onGetSessionTokenCallback
  by_cases hhttp : httpResult = successExecutionResult
  · subst hhttp
    rw [successExecutionResult_successful, Bool.not_true, if_neg Bool.false_ne_true]
    cases hparse : parse body with
    | none => exact ⟨_, retryExecutionResult_ne_success _, rfl⟩
    | some jsonResponse =>
        -- a required member is missing
        have hmissing : requiredJwtComponents.all jsonResponse.contains = false := by
          rw [Bool.eq_false_iff, ne_eq, Json.all_contains_iff]
          exact fun hall => h ⟨rfl, jsonResponse, hparse, hall⟩
        dsimp only
        rw [hmissing]
        exact ⟨_, retryExecutionResult_ne_success _, rfl⟩
  · rw [if_pos (by simpa using hhttp)]
    exact ⟨httpResult, hhttp, rfl⟩

/-- `OnGetSessionTokenCallback` succeeds exactly on a body that parses with
every required member, an integer lifetime and a string token; the lifetime
is the integer modulo `2 ^ 64`, read as a signed count. -/
theorem onGetSessionTokenCallback_eq_success_iff {response : GetSessionTokenResponse} :
    onGetSessionTokenCallback parse httpResult body = .ok ⟨successExecutionResult, some response⟩ ↔
      httpResult = successExecutionResult ∧ ∃ jsonResponse, parse body = some jsonResponse ∧
        (∃ tokenType, jsonResponse.find kJsonTokenTypeKey = some tokenType) ∧
        ∃ expiresIn, jsonResponse.find kJsonTokenExpiryKey = some (.number expiresIn) ∧
          jsonResponse.find kJsonAccessTokenKey = some (.string response.sessionToken) ∧
          response.tokenLifetimeInSeconds = (UInt64.ofInt expiresIn).toInt64 := by
  by_cases hfields : httpResult = successExecutionResult ∧ ∃ jsonResponse,
      parse body = some jsonResponse ∧
        ∀ key ∈ requiredJwtComponents, ∃ value, jsonResponse.find key = some value
  · obtain ⟨rfl, jsonResponse, hparse, hall⟩ := hfields
    obtain ⟨expiresIn, hexpires⟩ := hall kJsonTokenExpiryKey (by simp [requiredJwtComponents])
    obtain ⟨accessToken, haccess⟩ := hall kJsonAccessTokenKey (by simp [requiredJwtComponents])
    obtain ⟨tokenType, htype⟩ := hall kJsonTokenTypeKey (by simp [requiredJwtComponents])
    rw [onGetSessionTokenCallback_of_fields hparse hall hexpires haccess]
    simp only [bind_eq_ok_iff, Json.getUInt64_eq_ok, Json.getString_eq_ok]
    constructor
    · rintro ⟨_, ⟨i, rfl, rfl⟩, str, rfl, hpure⟩
      cases hpure
      exact ⟨trivial, _, hparse, ⟨_, htype⟩, i, hexpires, haccess, rfl⟩
    · rintro ⟨-, jsonResponse', hparse', -, i, hexpires', haccess', hlifetime⟩
      obtain rfl : jsonResponse' = jsonResponse := Option.some.inj (hparse'.symm.trans hparse)
      obtain rfl : expiresIn = .number i := Option.some.inj (hexpires.symm.trans hexpires')
      obtain rfl : accessToken = .string response.sessionToken :=
        Option.some.inj (haccess.symm.trans haccess')
      exact ⟨_, ⟨i, rfl, rfl⟩, _, rfl, by rw [← hlifetime]; rfl⟩
  · obtain ⟨result, -, hrun⟩ := onGetSessionTokenCallback_of_not_fields hfields
    rw [hrun]
    refine iff_of_false (by simp) ?_
    rintro ⟨hhttp, jsonResponse, hparse, ⟨tokenType, htype⟩, expiresIn, hexpires, haccess, -⟩
    refine hfields ⟨hhttp, jsonResponse, hparse, ?_⟩
    simp [requiredJwtComponents, hexpires, haccess, htype]

/-- `OnGetSessionTokenCallback` throws, out of the `noexcept` callback,
exactly when the body parses with every required member and the lifetime is
not an integer or the token not a string. -/
theorem onGetSessionTokenCallback_eq_error_iff {thrown : Thrown} :
    onGetSessionTokenCallback parse httpResult body = .error thrown ↔
      thrown = .typeError 302 ∧ httpResult = successExecutionResult ∧
        ∃ jsonResponse, parse body = some jsonResponse ∧
          (∀ key ∈ requiredJwtComponents, ∃ value, jsonResponse.find key = some value) ∧
          ¬((∃ i, jsonResponse.find kJsonTokenExpiryKey = some (.number i)) ∧
            ∃ str, jsonResponse.find kJsonAccessTokenKey = some (.string str)) := by
  by_cases hfields : httpResult = successExecutionResult ∧ ∃ jsonResponse,
      parse body = some jsonResponse ∧
        ∀ key ∈ requiredJwtComponents, ∃ value, jsonResponse.find key = some value
  · obtain ⟨rfl, jsonResponse, hparse, hall⟩ := hfields
    obtain ⟨expiresIn, hexpires⟩ := hall kJsonTokenExpiryKey (by simp [requiredJwtComponents])
    obtain ⟨accessToken, haccess⟩ := hall kJsonAccessTokenKey (by simp [requiredJwtComponents])
    rw [onGetSessionTokenCallback_of_fields hparse hall hexpires haccess]
    simp only [bind_eq_error_iff, Json.getUInt64_eq_error, Json.getUInt64_eq_ok,
      Json.getString_eq_error, Json.getString_eq_ok, hparse, hexpires, haccess, Option.some.injEq,
      exists_eq_left', true_and, pure, Except.pure, reduceCtorEq, and_false, exists_const,
      or_false]
    constructor
    · rintro (⟨rfl, hnumber⟩ | ⟨_, ⟨i, rfl, -⟩, rfl, hstring⟩)
      · exact ⟨rfl, hall, fun ⟨⟨i, hi⟩, _⟩ => hnumber i hi⟩
      · exact ⟨rfl, hall, fun ⟨_, str, hstr⟩ => hstring str hstr⟩
    · rintro ⟨rfl, -, hnot⟩
      by_cases hnumber : ∃ i, expiresIn = .number i
      · obtain ⟨i, rfl⟩ := hnumber
        exact .inr ⟨_, ⟨i, rfl, rfl⟩, rfl, fun str hstr => hnot ⟨⟨i, rfl⟩, str, hstr⟩⟩
      · exact .inl ⟨rfl, fun i hi => hnumber ⟨i, hi⟩⟩
  · obtain ⟨result, -, hrun⟩ := onGetSessionTokenCallback_of_not_fields hfields
    rw [hrun]
    refine iff_of_false (by simp) ?_
    rintro ⟨-, hhttp, jsonResponse, hparse, hall, -⟩
    exact hfields ⟨hhttp, jsonResponse, hparse, hall⟩

/-! ## The token for a target audience -/

/-- `PadBase64Encoding` fails only with a failure. -/
theorem padBase64Encoding_eq_result {encoded : String} {result : ExecutionResult}
    (h : padBase64Encoding encoded = .result result) : result ≠ successExecutionResult := by
  unfold padBase64Encoding at h
  split at h <;> cases h
  exact failureExecutionResult_ne_success _

/-- `Base64Decode` fails only with a failure. -/
theorem base64Decode_eq_error {encoded : String} {result : ExecutionResult}
    (h : base64Decode evpDecodeBase64 encoded = .error result) : result ≠ successExecutionResult := by
  unfold base64Decode at h
  split at h
  · cases h
    exact failureExecutionResult_ne_success _
  · split at h <;> cases h
    exact failureExecutionResult_ne_success _

variable (parse) in
/-- The body is a token of three parts whose middle part, padded and decoded
from base64, parses as `jsonWebToken`. -/
def DecodesTo (responseBody : String) (jsonWebToken : Json) : Prop :=
  ∃ header jwt signature paddedJwt decodedJsonStr,
    strSplit responseBody '.' = [header, jwt, signature] ∧
    padBase64Encoding jwt = .value paddedJwt ∧
    base64Decode evpDecodeBase64 paddedJwt = .ok decodedJsonStr ∧
    parse decodedJsonStr = some jsonWebToken

/-- With a token that decodes and every required member present,
`OnGetSessionTokenForTargetAudienceCallback` converts the two times. -/
theorem onGetSessionTokenForTargetAudienceCallback_of_fields {jsonWebToken exp iat : Json}
    (hdecodes : DecodesTo parse evpDecodeBase64 body jsonWebToken)
    (hall : ∀ key ∈ requiredJwtComponentsForTargetAudienceToken,
      ∃ value, jsonWebToken.find key = some value)
    (hexp : jsonWebToken.find kJsonTokenExpiryKeyForTargetAudience = some exp)
    (hiat : jsonWebToken.find kJsonTokenIssuedAtKey = some iat) :
    onGetSessionTokenForTargetAudienceCallback parse evpDecodeBase64 successExecutionResult body =
      (do
        let expirySeconds ← exp.getUInt64
        let issuedSeconds ← iat.getUInt64
        pure ⟨successExecutionResult, some ⟨body, (expirySeconds - issuedSeconds).toInt64⟩⟩) := by
  obtain ⟨header, jwt, signature, paddedJwt, decodedJsonStr, hsplit, hpad, hdecode, hparse⟩ :=
    hdecodes
  rw [onGetSessionTokenForTargetAudienceCallback, successExecutionResult_successful, hsplit]
  simp only [Bool.not_true, Bool.false_eq_true, if_false, hpad, hdecode, hparse,
    Json.all_contains_iff.mpr hall, Json.atKey_of_find hexp, Json.atKey_of_find hiat, ok_bind]

/-- Unless the HTTP call succeeded and the token decoded with every required
member, `OnGetSessionTokenForTargetAudienceCallback` finishes with a failure
or a retry and no response. -/
theorem onGetSessionTokenForTargetAudienceCallback_of_not_fields
    (h : ¬(httpResult = successExecutionResult ∧ ∃ jsonWebToken,
      DecodesTo parse evpDecodeBase64 body jsonWebToken ∧
        ∀ key ∈ requiredJwtComponentsForTargetAudienceToken,
          ∃ value, jsonWebToken.find key = some value)) :
    ∃ result, result ≠ successExecutionResult ∧
      onGetSessionTokenForTargetAudienceCallback parse evpDecodeBase64 httpResult body =
        .ok ⟨result, none⟩ := by
  unfold onGetSessionTokenForTargetAudienceCallback
  by_cases hhttp : httpResult = successExecutionResult
  · subst hhttp
    rw [successExecutionResult_successful, Bool.not_true, if_neg Bool.false_ne_true]
    -- each step that fails finishes with its own failure
    split
    · next header jwt signature hsplit =>
      split
      · next result hpad => exact ⟨result, padBase64Encoding_eq_result hpad, rfl⟩
      · next paddedJwt hpad =>
        split
        · next result hdecode =>
          exact ⟨result, base64Decode_eq_error evpDecodeBase64 hdecode, rfl⟩
        · next decodedJsonStr hdecode =>
          split
          · exact ⟨_, retryExecutionResult_ne_success _, rfl⟩
          · next jsonWebToken hparse =>
            have hmissing :
                requiredJwtComponentsForTargetAudienceToken.all jsonWebToken.contains = false := by
              rw [Bool.eq_false_iff, ne_eq, Json.all_contains_iff]
              exact fun hall => h ⟨rfl, jsonWebToken,
                ⟨header, jwt, signature, paddedJwt, decodedJsonStr, hsplit, hpad, hdecode, hparse⟩,
                hall⟩
            rw [hmissing]
            exact ⟨_, retryExecutionResult_ne_success _, rfl⟩
    · exact ⟨_, retryExecutionResult_ne_success _, rfl⟩
  · rw [if_pos (by simpa using hhttp)]
    exact ⟨httpResult, hhttp, rfl⟩

/-- A body decodes to one token at most. -/
theorem DecodesTo.unique {jsonWebToken jsonWebToken' : Json}
    (h : DecodesTo parse evpDecodeBase64 body jsonWebToken)
    (h' : DecodesTo parse evpDecodeBase64 body jsonWebToken') : jsonWebToken = jsonWebToken' := by
  obtain ⟨_, _, _, _, _, hsplit, hpad, hdecode, hparse⟩ := h
  obtain ⟨_, _, _, _, _, hsplit', hpad', hdecode', hparse'⟩ := h'
  -- each step is a function of the one before
  obtain ⟨-, rfl, -⟩ : _ ∧ _ ∧ _ := by simpa [hsplit] using hsplit'
  obtain rfl : _ = _ := ExecutionResultOr.value.inj (hpad.symm.trans hpad')
  obtain rfl : _ = _ := Except.ok.inj (hdecode.symm.trans hdecode')
  exact Option.some.inj (hparse.symm.trans hparse')

/-- `OnGetSessionTokenForTargetAudienceCallback` succeeds exactly on a token
that decodes with every required member and two integer times; the lifetime
is their difference modulo `2 ^ 64`, read as a signed count. -/
theorem onGetSessionTokenForTargetAudienceCallback_eq_success_iff
    {response : GetSessionTokenResponse} :
    onGetSessionTokenForTargetAudienceCallback parse evpDecodeBase64 httpResult body =
        .ok ⟨successExecutionResult, some response⟩ ↔
      httpResult = successExecutionResult ∧ ∃ jsonWebToken,
        DecodesTo parse evpDecodeBase64 body jsonWebToken ∧
        (∀ key ∈ [kJsonTokenIssuerKey, kJsonTokenAudienceKey, kJsonTokenSubjectKey],
          ∃ value, jsonWebToken.find key = some value) ∧
        ∃ exp iat, jsonWebToken.find kJsonTokenExpiryKeyForTargetAudience = some (.number exp) ∧
          jsonWebToken.find kJsonTokenIssuedAtKey = some (.number iat) ∧
          response = ⟨body, (UInt64.ofInt exp - UInt64.ofInt iat).toInt64⟩ := by
  by_cases hfields : httpResult = successExecutionResult ∧ ∃ jsonWebToken,
      DecodesTo parse evpDecodeBase64 body jsonWebToken ∧
        ∀ key ∈ requiredJwtComponentsForTargetAudienceToken,
          ∃ value, jsonWebToken.find key = some value
  · obtain ⟨rfl, jsonWebToken, hdecodes, hall⟩ := hfields
    obtain ⟨exp, hexp⟩ := hall kJsonTokenExpiryKeyForTargetAudience
      (by simp [requiredJwtComponentsForTargetAudienceToken])
    obtain ⟨iat, hiat⟩ := hall kJsonTokenIssuedAtKey
      (by simp [requiredJwtComponentsForTargetAudienceToken])
    rw [onGetSessionTokenForTargetAudienceCallback_of_fields evpDecodeBase64 hdecodes hall hexp hiat]
    simp only [bind_eq_ok_iff, Json.getUInt64_eq_ok]
    constructor
    · rintro ⟨_, ⟨e, rfl, rfl⟩, _, ⟨i, rfl, rfl⟩, hpure⟩
      cases hpure
      refine ⟨trivial, jsonWebToken, hdecodes, fun key hkey => hall key ?_, e, i, hexp, hiat, rfl⟩
      simp only [List.mem_cons, List.not_mem_nil, or_false] at hkey
      simp only [requiredJwtComponentsForTargetAudienceToken, List.mem_cons, List.not_mem_nil,
        or_false]
      tauto
    · rintro ⟨-, jsonWebToken', hdecodes', -, e, i, hexp', hiat', rfl⟩
      obtain rfl := hdecodes.unique evpDecodeBase64 hdecodes'
      obtain rfl : exp = .number e := Option.some.inj (hexp.symm.trans hexp')
      obtain rfl : iat = .number i := Option.some.inj (hiat.symm.trans hiat')
      exact ⟨_, ⟨e, rfl, rfl⟩, _, ⟨i, rfl, rfl⟩, rfl⟩
  · obtain ⟨result, -, hrun⟩ :=
      onGetSessionTokenForTargetAudienceCallback_of_not_fields evpDecodeBase64 hfields
    rw [hrun]
    refine iff_of_false (by simp) ?_
    rintro ⟨hhttp, jsonWebToken, hdecodes, hothers, e, i, hexp, hiat, -⟩
    refine hfields ⟨hhttp, jsonWebToken, hdecodes, fun key hkey => ?_⟩
    simp only [requiredJwtComponentsForTargetAudienceToken, List.mem_cons, List.not_mem_nil,
      or_false] at hkey
    rcases hkey with rfl | rfl | rfl | rfl | rfl
    · exact hothers _ (by simp)
    · exact hothers _ (by simp)
    · exact hothers _ (by simp)
    · exact ⟨_, hiat⟩
    · exact ⟨_, hexp⟩

/-- `OnGetSessionTokenForTargetAudienceCallback` throws, out of the
`noexcept` callback, exactly when the token decodes with every required
member and one of the two times is not an integer. -/
theorem onGetSessionTokenForTargetAudienceCallback_eq_error_iff {thrown : Thrown} :
    onGetSessionTokenForTargetAudienceCallback parse evpDecodeBase64 httpResult body =
        .error thrown ↔
      thrown = .typeError 302 ∧ httpResult = successExecutionResult ∧ ∃ jsonWebToken,
        DecodesTo parse evpDecodeBase64 body jsonWebToken ∧
        (∀ key ∈ requiredJwtComponentsForTargetAudienceToken,
          ∃ value, jsonWebToken.find key = some value) ∧
        ¬((∃ e, jsonWebToken.find kJsonTokenExpiryKeyForTargetAudience = some (.number e)) ∧
          ∃ i, jsonWebToken.find kJsonTokenIssuedAtKey = some (.number i)) := by
  by_cases hfields : httpResult = successExecutionResult ∧ ∃ jsonWebToken,
      DecodesTo parse evpDecodeBase64 body jsonWebToken ∧
        ∀ key ∈ requiredJwtComponentsForTargetAudienceToken,
          ∃ value, jsonWebToken.find key = some value
  · obtain ⟨rfl, jsonWebToken, hdecodes, hall⟩ := hfields
    obtain ⟨exp, hexp⟩ := hall kJsonTokenExpiryKeyForTargetAudience
      (by simp [requiredJwtComponentsForTargetAudienceToken])
    obtain ⟨iat, hiat⟩ := hall kJsonTokenIssuedAtKey
      (by simp [requiredJwtComponentsForTargetAudienceToken])
    rw [onGetSessionTokenForTargetAudienceCallback_of_fields evpDecodeBase64 hdecodes hall hexp hiat]
    simp only [bind_eq_error_iff, Json.getUInt64_eq_error, Json.getUInt64_eq_ok, true_and, pure,
      Except.pure, reduceCtorEq, and_false, exists_const, or_false]
    constructor
    · rintro (⟨rfl, hnumber⟩ | ⟨_, ⟨e, rfl, -⟩, rfl, hnumber⟩)
      · exact ⟨rfl, _, hdecodes, hall,
          fun ⟨⟨e, he⟩, _⟩ => hnumber e (Option.some.inj (hexp.symm.trans he))⟩
      · exact ⟨rfl, _, hdecodes, hall,
          fun ⟨_, i, hi⟩ => hnumber i (Option.some.inj (hiat.symm.trans hi))⟩
    · rintro ⟨rfl, jsonWebToken', hdecodes', -, hnot⟩
      obtain rfl := hdecodes.unique evpDecodeBase64 hdecodes'
      simp only [hexp, hiat, Option.some.injEq] at hnot
      by_cases hnumber : ∃ e, exp = .number e
      · obtain ⟨e, rfl⟩ := hnumber
        exact .inr ⟨_, ⟨e, rfl, rfl⟩, rfl, fun i hi => hnot ⟨⟨e, rfl⟩, i, hi⟩⟩
      · exact .inl ⟨rfl, fun e he => hnumber ⟨e, he⟩⟩
  · obtain ⟨result, -, hrun⟩ :=
      onGetSessionTokenForTargetAudienceCallback_of_not_fields evpDecodeBase64 hfields
    rw [hrun]
    refine iff_of_false (by simp) ?_
    rintro ⟨-, hhttp, jsonWebToken, hdecodes, hall, -⟩
    exact hfields ⟨hhttp, jsonWebToken, hdecodes, hall⟩

end GcpAuthTokenProvider

end Callbacks

/-! ## Where the callbacks end the process or accept a bad lifetime -/

namespace GcpAuthTokenProvider

/-- An answer of the metadata server, with the given token and lifetime. -/
def tokenResponse (accessToken expiresIn : Json) : Json :=
  .object [(kJsonAccessTokenKey, accessToken), (kJsonTokenExpiryKey, expiresIn),
    (kJsonTokenTypeKey, .string "Bearer")]

/-- The claims of a web token issued at `iat` that expires at `exp`. -/
def webTokenClaims (iat exp : Int) : Json :=
  .object [(kJsonTokenIssuerKey, .string "i"), (kJsonTokenAudienceKey, .string "a"),
    (kJsonTokenSubjectKey, .string "s"), (kJsonTokenIssuedAtKey, .number iat),
    (kJsonTokenExpiryKeyForTargetAudience, .number exp)]

end GcpAuthTokenProvider

end ControlPlane.AuthToken
