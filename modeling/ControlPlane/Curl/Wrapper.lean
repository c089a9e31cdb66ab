import ControlPlane.Core.Common

/-!
# Http1CurlWrapper and Http1CurlClient

`Http1CurlWrapper::PerformRequest` (src/cc/core/curl_client/src) sets up a
libcurl handle and runs `curl_easy_perform`. On failure it reads an HTTP
status out of libcurl's error text, `GetExecutionResultFromCurlError`: the
first run of three digits, anywhere. Below 400 that is a success result,
which the wrapper returns as is: an `ExecutionResultOr` that is successful
and holds no response. `Http1CurlClient::PerformRequest` takes every
successful result for a response and dereferences it.

The body arrives through `ResponsePayloadHandler`, once per chunk libcurl
hands over, and a PUT body leaves through `RequestReadHandler`, once per
buffer libcurl offers.

## Implementation notes

libcurl is the environment: the code of `curl_easy_perform`, the text it
leaves in the error buffer, and the chunks of the body (`CurlPerform`);
`AddHeadersToRequest` and `GetEscapedUriWithQuery` are given by their
results. The error buffer is modelled by the message libcurl writes into it:
the NUL bytes behind the message are no digits and match nothing.
-/

namespace ControlPlane.Curl

open ControlPlane.Core

/-! ## Error codes -/

def scCurlClient : Nat := 0x0019

def scCurlClientUnsupportedMethod : StatusCode := makeErrorCode scCurlClient 0x0005
def scCurlClientRequestFailed : StatusCode := makeErrorCode scCurlClient 0x0006
def scCurlClientNoPathSupplied : StatusCode := makeErrorCode scCurlClient 0x0007
def scCurlClientRequestUnauthorized : StatusCode := makeErrorCode scCurlClient 0x0008
def scCurlClientRequestForbidden : StatusCode := makeErrorCode scCurlClient 0x0009
def scCurlClientRequestNotFound : StatusCode := makeErrorCode scCurlClient 0x000A
def scCurlClientRequestConflict : StatusCode := makeErrorCode scCurlClient 0x000B
def scCurlClientRequestServerError : StatusCode := makeErrorCode scCurlClient 0x000C
def scCurlClientRequestNotImplemented : StatusCode := makeErrorCode scCurlClient 0x000D
def scCurlClientRequestServiceUnavailable : StatusCode := makeErrorCode scCurlClient 0x000E
def scCurlClientRequestOtherHttpError : StatusCode := makeErrorCode scCurlClient 0x000F
def scCurlClientRequestBadRegexParsing : StatusCode := makeErrorCode scCurlClient 0x0010

/-! ## The status in libcurl's error text -/

def digitValue (c : Char) : Nat := c.toNat - '0'.toNat

/-- `regex_search` with `([0-9]{3})` and `stoi` of the match: the value of
the leftmost run of three digits. Three digits always fit an `int`, so
`stoi` never throws here. -/
def firstThreeDigits : List Char → Option Nat
  | a :: b :: c :: rest =>
      if a.isDigit ∧ b.isDigit ∧ c.isDigit then
        some (100 * digitValue a + 10 * digitValue b + digitValue c)
      else firstThreeDigits (b :: c :: rest)
  | _ => none

/-- The result for an HTTP status of 400 or more. -/
def httpErrorResult (httpCode : Nat) : ExecutionResult :=
  match httpCode with
  | 400 => failureExecutionResult scCurlClientRequestFailed
  | 401 => failureExecutionResult scCurlClientRequestUnauthorized
  | 403 => failureExecutionResult scCurlClientRequestForbidden
  | 404 => failureExecutionResult scCurlClientRequestNotFound
  | 409 => failureExecutionResult scCurlClientRequestConflict
  | 500 => retryExecutionResult scCurlClientRequestServerError
  | 501 => retryExecutionResult scCurlClientRequestNotImplemented
  | 503 => retryExecutionResult scCurlClientRequestServiceUnavailable
  | _ => retryExecutionResult scCurlClientRequestOtherHttpError

/-- `GetExecutionResultFromCurlError`. -/
def getExecutionResultFromCurlError (errBuffer : List Char) : ExecutionResult :=
  match firstThreeDigits errBuffer with
  | none => retryExecutionResult scCurlClientRequestBadRegexParsing
  | some httpCode => if httpCode < 400 then successExecutionResult else httpErrorResult httpCode

/-! ## The body callbacks -/

/-- `BytesBuffer`: the bytes, with the length and capacity fields. -/
structure BytesBuffer where
  bytes : List UInt8 := []
  length : Nat := 0
  capacity : Nat := 0
  deriving DecidableEq, Repr

/-- `ResponsePayloadHandler`: the output becomes a fresh buffer holding the
chunk. -/
def responsePayloadHandler (output : BytesBuffer) (contents : List UInt8) : BytesBuffer :=
  { output with bytes := contents, length := contents.length, capacity := contents.length }

/-- `RequestReadHandler`: up to `size` bytes, copied from the start of the
body. -/
def requestReadHandler (input : BytesBuffer) (size : Nat) : List UInt8 :=
  input.bytes.take (min size input.length)

/-- The read calls of one upload: libcurl offers each buffer size in turn,
until it has the body's length or a call hands over nothing. -/
def uploadReads (body : BytesBuffer) (received : Nat) : List Nat → List (List UInt8)
  | [] => []
  | size :: sizes =>
      if body.length ≤ received then []
      else
        let chunk := requestReadHandler body size
        if chunk = [] then [] else chunk :: uploadReads body (received + chunk.length) sizes

/-! ## PerformRequest -/

inductive HttpMethod where
  | GET
  | POST
  | PUT
  | UNKNOWN
  deriving DecidableEq, Repr

/-- The fields of `HttpRequest` that `PerformRequest` reads; `path` is the
`Uri` pointer, `none` when null. -/
structure HttpRequest where
  method : HttpMethod
  path : Option String
  body : BytesBuffer := {}
  deriving Repr

def kHttpStatusOk : Nat := 200

structure HttpResponse where
  code : Nat
  body : BytesBuffer
  deriving DecidableEq, Repr

/-- What libcurl does in one `curl_easy_perform`: its `CURLcode` (0 is
`CURLE_OK`), the message it leaves in the error buffer, and the response body
in the chunks it hands the write callback. -/
structure CurlPerform where
  code : Nat
  errorBuffer : List Char
  chunks : List (List UInt8)
  deriving Repr

/-- The environment of one request: the results of `AddHeadersToRequest` and
`GetEscapedUriWithQuery`, then libcurl's run. -/
structure CurlEnv where
  addHeaders : ExecutionResult := successExecutionResult
  escapedUri : ExecutionResult := successExecutionResult
  perform : CurlPerform

/-- `Http1CurlWrapper::PerformRequest`. -/
def performRequest (request : HttpRequest) (env : CurlEnv) : ExecutionResultOr HttpResponse :=
  if request.path.getD "" = "" then .result (failureExecutionResult scCurlClientNoPathSupplied)
  else if request.method = .UNKNOWN then
    .result (failureExecutionResult scCurlClientUnsupportedMethod)
  -- `RETURN_IF_FAILURE` on the header list and on the escaped URI
  else if !env.addHeaders.successful then .result env.addHeaders
  else if !env.escapedUri.successful then .result env.escapedUri
  else
    let body := env.perform.chunks.foldl responsePayloadHandler {}
    if env.perform.code ≠ 0 then .result (getExecutionResultFromCurlError env.perform.errorBuffer)
    else .value { code := kHttpStatusOk, body := body }

/-- The operation `Http1CurlClient::PerformRequest` dispatches: on an
unsuccessful result the context's result; on a successful one the response,
moved out of the result. `none` is that dereference on a result that holds no
response (`std::get` of the wrong alternative). -/
def clientOperation (responseOr : ExecutionResultOr HttpResponse) :
    Option (ExecutionResult × Option HttpResponse) :=
  if !responseOr.successful then some (responseOr.toResult, none)
  else
    match responseOr with
    | .value response => some (successExecutionResult, some response)
    | .result _ => none

/-! ## What a failed perform returns -/

theorem httpErrorResult_successful (httpCode : Nat) :
    (httpErrorResult httpCode).successful = false := by
  unfold httpErrorResult
  split <;> simp

/-- Text without three digits in a row is a retry. -/
theorem getExecutionResultFromCurlError_of_none {errBuffer : List Char}
    (h : firstThreeDigits errBuffer = none) :
    getExecutionResultFromCurlError errBuffer =
      retryExecutionResult scCurlClientRequestBadRegexParsing := by
  simp [getExecutionResultFromCurlError, h]

/-- The result read from the error text is a success exactly when its first
three digits stand for a number below 400. -/
theorem getExecutionResultFromCurlError_successful_iff {errBuffer : List Char} :
    (getExecutionResultFromCurlError errBuffer).successful = true ↔
      ∃ httpCode, firstThreeDigits errBuffer = some httpCode ∧ httpCode < 400 := by
  unfold getExecutionResultFromCurlError
  cases h : firstThreeDigits errBuffer with
  | none => simp
  | some httpCode =>
      by_cases hlt : httpCode < 400
      · simp [hlt]
      · simp [hlt, httpErrorResult_successful]

section Perform

variable {request : HttpRequest} {env : CurlEnv}

/-- Whether `PerformRequest` gets as far as libcurl: a path, a method it
supports, and the headers and the URI built. -/
def Reaches (request : HttpRequest) (env : CurlEnv) : Prop :=
  request.path.getD "" ≠ "" ∧ request.method ≠ .UNKNOWN ∧ env.addHeaders.successful = true ∧
    env.escapedUri.successful = true

/-- Once the request reaches libcurl, the wrapper answers with a response
exactly when the perform succeeded, and otherwise with the result read from
the error text. -/
theorem performRequest_of_reaches (h : Reaches request env) :
    performRequest request env =
      if env.perform.code = 0 then
        .value { code := kHttpStatusOk, body := env.perform.chunks.foldl responsePayloadHandler {} }
      else .result (getExecutionResultFromCurlError env.perform.errorBuffer) := by
  obtain ⟨hpath, hmethod, hheaders, huri⟩ := h
  by_cases hcode : env.perform.code = 0 <;> simp [performRequest, hpath, hmethod, hheaders, huri, hcode]

/-- A failed perform comes back successful, and so without a response,
exactly when the error text's first three digits are below 400. -/
theorem performRequest_successful_of_failed_perform (h : Reaches request env)
    (hcode : env.perform.code ≠ 0) :
    (performRequest request env).successful = true ↔
      ∃ httpCode, firstThreeDigits env.perform.errorBuffer = some httpCode ∧ httpCode < 400 := by
  rw [performRequest_of_reaches h, if_neg hcode, ← getExecutionResultFromCurlError_successful_iff]
  rfl

/-- The client dereferences a result exactly when it is successful; it finds
no response there exactly when the wrapper returned a bare success. -/
theorem clientOperation_eq_none_iff (responseOr : ExecutionResultOr HttpResponse) :
    clientOperation responseOr = none ↔ responseOr = .result successExecutionResult := by
  cases responseOr with
  | value response => simp [clientOperation, ExecutionResultOr.successful, ExecutionResultOr.toResult]
  | result r =>
      by_cases hr : r = successExecutionResult
      · subst hr
        simp [clientOperation, ExecutionResultOr.successful, ExecutionResultOr.toResult]
      · simp [clientOperation, ExecutionResultOr.successful, ExecutionResultOr.toResult, hr]

end Perform

/-! ## What the body callbacks keep -/

/-- Each call of the write callback replaces the body: what is left is the
last chunk. -/
theorem foldl_responsePayloadHandler (out : BytesBuffer) (chunks : List (List UInt8))
    (c : List UInt8) :
    (chunks ++ [c]).foldl responsePayloadHandler out =
      { out with bytes := c, length := c.length, capacity := c.length } := by
  rw [List.foldl_append, List.foldl_cons, List.foldl_nil]
  rfl

/-- A response taken in chunks holds the last chunk only. -/
theorem performRequest_body_of_chunks {request : HttpRequest} {env : CurlEnv}
    (h : Reaches request env) (hcode : env.perform.code = 0) {chunks : List (List UInt8)}
    {c : List UInt8} (hchunks : env.perform.chunks = chunks ++ [c]) :
    performRequest request env = .value ⟨kHttpStatusOk, ⟨c, c.length, c.length⟩⟩ := by
  rw [performRequest_of_reaches h, if_pos hcode, hchunks, foldl_responsePayloadHandler]

/-- Every read hands over the start of the body: the read callback keeps no
position. -/
theorem eq_take_of_mem_uploadReads {body : BytesBuffer} :
    ∀ {received : Nat} {sizes : List Nat} {chunk : List UInt8},
      chunk ∈ uploadReads body received sizes → chunk = body.bytes.take chunk.length
  | _, [], _, hchunk => by simp [uploadReads] at hchunk
  | received, size :: sizes, chunk, hchunk => by
      unfold uploadReads at hchunk
      split at hchunk
      · simp at hchunk
      · dsimp only at hchunk
        split at hchunk
        · simp at hchunk
        · rcases List.mem_cons.mp hchunk with rfl | hrest
          · simp [requestReadHandler]
          · exact eq_take_of_mem_uploadReads hrest

/-- A GET of the instance metadata server. -/
def metadataRequest : HttpRequest := ⟨.GET, some "/computeMetadata/v1/instance/id", {}⟩

/-- libcurl cannot connect (`CURLE_COULDNT_CONNECT`) and says where it tried. -/
def connectFailure : CurlEnv where
  perform := ⟨7, "Failed to connect to 169.254.169.254 port 80: Connection refused".toList, []⟩

/-- The connect failure's text starts its first run of three digits with the
address, 169: the wrapper returns a success that holds no response, and the
client dereferences it. -/
theorem performRequest_connect_failure_without_response :
    performRequest metadataRequest connectFailure = .result successExecutionResult ∧
      (performRequest metadataRequest connectFailure).successful = true ∧
      clientOperation (performRequest metadataRequest connectFailure) = none := by
  decide

/-- A two-byte PUT body. -/
def twoByteBody : BytesBuffer := ⟨[1, 2], 2, 2⟩

/-- A perform that succeeds and hands the response body over in two
chunks. -/
def twoChunkResponse : CurlEnv where
  perform := ⟨0, [], [[1], [2]]⟩

/-- The response `[1, 2]` in two chunks comes back as `[2]`; the two-byte
body read through one-byte buffers goes out as `[1, 1]`. -/
theorem performRequest_keeps_last_chunk_and_rereads_body :
    performRequest ⟨.PUT, some "/upload", twoByteBody⟩ twoChunkResponse =
        .value ⟨kHttpStatusOk, ⟨[2], 1, 1⟩⟩ ∧
      (uploadReads twoByteBody 0 [1, 1]).flatten = [1, 1] := by
  decide

end ControlPlane.Curl
