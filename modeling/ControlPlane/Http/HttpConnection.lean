import ControlPlane.Http.AwsV4Signer
import ControlPlane.Lib.Ledger
import ControlPlane.Lib.Simulation

/-!
# `HttpConnection`: the pending calls across the event loop

`HttpConnection` (src/cc/core/http2_client/src/http_connection.cc) sends the
requests that `Execute` accepts over one nghttp2 session. `Execute` reads
`is_ready_`, inserts the context into `pending_network_calls_` under a fresh
request id and posts `SendHttpRequest` to the connection's `io_service`, which
one worker thread runs. Three functions finish a context, each only after it
erased the context's request id from the map: `SendHttpRequest` (unsupported
method, a URI that does not escape, a failed submit), `OnRequestResponseClosed`
(nghttp2's `on_close`), and `CancelPendingCallbacks`, which the handler that
`OnConnectionError` posts and `Stop` call. `HttpConnectionPool::RecycleConnection`
stops a dropped connection and runs `Reset`, `Init` and `Run`: a new io service
and session, and the same map.

The connection and what surrounds it are one state, `World`, and each atomic
action of a thread is an `Event`. A call of `Execute` is two events, its read
of `is_ready_` and its insert with the post; `Stop` is three, its posts, what
follows its join, and its return. The worker runs the head of the io queue, and
nghttp2 calls `on_connect`, `on_error` and `on_close` on the worker while it
runs. An event that cannot happen in a state leaves the state as it is.

Every finish erases first, so no request id is finished twice, and a context
finished because the connection dropped is finished with a retry. An `Execute`
that read `is_ready_` before a `Stop` may insert after the `Stop` cancelled:
its handler goes to the stopped io service and never runs, and the context
stays pending while no other `Stop` comes.

## Implementation notes

Request ids come from a counter, as `Uuid::GenerateUuid` gives distinct ids.
A context is what the connection reads of it: the request's method and the
answer of `GetEscapedUriWithQuery`, which is not modelled. The status code that
`on_response` stores and nghttp2's error code come with the `on_close` event,
and what `session_->submit` reports comes with the event that runs the handler.
A `Stop` starts when no other is under way, as `RecycleConnection` holds the
pool's lock. `Init` is taken to succeed.
-/

namespace ControlPlane.Http

open Core Ledger
open Curl (HttpMethod)

/-! ## Error codes and the status code of a response -/

def scHttp2ClientFailedToIssueHttpRequest : StatusCode := makeErrorCode scHttp2Client 0x0003

def scHttp2ClientNoConnectionEstablished : StatusCode := makeErrorCode scHttp2Client 0x000A

def scHttp2ClientHttpMethodNotSupported : StatusCode := makeErrorCode scHttp2Client 0x000B

def scHttp2ClientConnectionDropped : StatusCode := makeErrorCode scHttp2Client 0x0010

def scHttp2ClientHttpStatusMultipleChoices : StatusCode := makeErrorCode scHttp2Client 0x0015

def scHttp2ClientHttpStatusMovedPermanently : StatusCode := makeErrorCode scHttp2Client 0x0016

def scHttp2ClientHttpStatusFound : StatusCode := makeErrorCode scHttp2Client 0x0017

def scHttp2ClientHttpStatusSeeOther : StatusCode := makeErrorCode scHttp2Client 0x0018

def scHttp2ClientHttpStatusNotModified : StatusCode := makeErrorCode scHttp2Client 0x0019

def scHttp2ClientHttpStatusTemporaryRedirect : StatusCode := makeErrorCode scHttp2Client 0x001A

def scHttp2ClientHttpStatusPermanentRedirect : StatusCode := makeErrorCode scHttp2Client 0x001B

def scHttp2ClientHttpStatusBadRequest : StatusCode := makeErrorCode scHttp2Client 0x001C

def scHttp2ClientHttpStatusUnauthorized : StatusCode := makeErrorCode scHttp2Client 0x001D

def scHttp2ClientHttpStatusForbidden : StatusCode := makeErrorCode scHttp2Client 0x001E

def scHttp2ClientHttpStatusNotFound : StatusCode := makeErrorCode scHttp2Client 0x0020

def scHttp2ClientHttpStatusMethodNotAllowed : StatusCode := makeErrorCode scHttp2Client 0x0021

def scHttp2ClientHttpStatusRequestTimeout : StatusCode := makeErrorCode scHttp2Client 0x0022

def scHttp2ClientHttpStatusConflict : StatusCode := makeErrorCode scHttp2Client 0x0023

def scHttp2ClientHttpStatusGone : StatusCode := makeErrorCode scHttp2Client 0x0024

def scHttp2ClientHttpStatusLengthRequired : StatusCode := makeErrorCode scHttp2Client 0x0025

def scHttp2ClientHttpStatusPreconditionFailed : StatusCode := makeErrorCode scHttp2Client 0x0026

def scHttp2ClientHttpStatusRequestEntityTooLarge : StatusCode := makeErrorCode scHttp2Client 0x0027

def scHttp2ClientHttpStatusRequestUriTooLong : StatusCode := makeErrorCode scHttp2Client 0x0028

def scHttp2ClientHttpStatusUnsupportedMediaType : StatusCode := makeErrorCode scHttp2Client 0x0029

def scHttp2ClientHttpStatusRequestRangeNotSatisfiable : StatusCode :=
  makeErrorCode scHttp2Client 0x002A

def scHttp2ClientHttpStatusMisdirectedRequest : StatusCode := makeErrorCode scHttp2Client 0x002B

def scHttp2ClientHttpStatusTooManyRequests : StatusCode := makeErrorCode scHttp2Client 0x002C

def scHttp2ClientHttpStatusInternalServerError : StatusCode := makeErrorCode scHttp2Client 0x002D

def scHttp2ClientHttpStatusNotImplemented : StatusCode := makeErrorCode scHttp2Client 0x002E

def scHttp2ClientHttpStatusBadGateway : StatusCode := makeErrorCode scHttp2Client 0x002F

def scHttp2ClientHttpStatusServiceUnavailable : StatusCode := makeErrorCode scHttp2Client 0x0030

def scHttp2ClientHttpStatusGatewayTimeout : StatusCode := makeErrorCode scHttp2Client 0x0031

def scHttp2ClientHttpStatusHttpVersionNotSupported : StatusCode :=
  makeErrorCode scHttp2Client 0x0032

def scHttp2ClientHttpRequestCloseError : StatusCode := makeErrorCode scHttp2Client 0x0033

def scHttp2ClientHttpRequestResponseStatusUnknown : StatusCode := makeErrorCode scHttp2Client 0x0034

/-- `ConvertHttpStatusCodeToExecutionResult`, over the `int` that
`on_response` casts to `HttpStatusCode`. -/
def convertHttpStatusCodeToExecutionResult : Nat → ExecutionResult
  | 200 | 201 | 202 | 204 | 206 => successExecutionResult
  | 300 => failureExecutionResult scHttp2ClientHttpStatusMultipleChoices
  | 301 => failureExecutionResult scHttp2ClientHttpStatusMovedPermanently
  | 302 => failureExecutionResult scHttp2ClientHttpStatusFound
  | 303 => failureExecutionResult scHttp2ClientHttpStatusSeeOther
  | 304 => failureExecutionResult scHttp2ClientHttpStatusNotModified
  | 307 => failureExecutionResult scHttp2ClientHttpStatusTemporaryRedirect
  | 308 => failureExecutionResult scHttp2ClientHttpStatusPermanentRedirect
  | 400 => failureExecutionResult scHttp2ClientHttpStatusBadRequest
  | 401 => failureExecutionResult scHttp2ClientHttpStatusUnauthorized
  | 403 => failureExecutionResult scHttp2ClientHttpStatusForbidden
  | 404 => failureExecutionResult scHttp2ClientHttpStatusNotFound
  | 405 => failureExecutionResult scHttp2ClientHttpStatusMethodNotAllowed
  | 408 => failureExecutionResult scHttp2ClientHttpStatusRequestTimeout
  | 409 => failureExecutionResult scHttp2ClientHttpStatusConflict
  | 410 => failureExecutionResult scHttp2ClientHttpStatusGone
  | 411 => failureExecutionResult scHttp2ClientHttpStatusLengthRequired
  | 412 => failureExecutionResult scHttp2ClientHttpStatusPreconditionFailed
  | 413 => failureExecutionResult scHttp2ClientHttpStatusRequestEntityTooLarge
  | 414 => failureExecutionResult scHttp2ClientHttpStatusRequestUriTooLong
  | 415 => failureExecutionResult scHttp2ClientHttpStatusUnsupportedMediaType
  | 416 => failureExecutionResult scHttp2ClientHttpStatusRequestRangeNotSatisfiable
  | 421 => failureExecutionResult scHttp2ClientHttpStatusMisdirectedRequest
  | 429 => failureExecutionResult scHttp2ClientHttpStatusTooManyRequests
  | 500 => retryExecutionResult scHttp2ClientHttpStatusInternalServerError
  | 501 => retryExecutionResult scHttp2ClientHttpStatusNotImplemented
  | 502 => retryExecutionResult scHttp2ClientHttpStatusBadGateway
  | 503 => retryExecutionResult scHttp2ClientHttpStatusServiceUnavailable
  | 504 => retryExecutionResult scHttp2ClientHttpStatusGatewayTimeout
  | 505 => retryExecutionResult scHttp2ClientHttpStatusHttpVersionNotSupported
  | 0 => failureExecutionResult scUnknown
  | _ => failureExecutionResult scHttp2ClientHttpRequestResponseStatusUnknown

/-- The result `OnRequestResponseClosed` gives: the status code's, unless
nghttp2 reported an error and the status code is not a failure of its own. -/
def closedResult (statusCode errorCode : Nat) : ExecutionResult :=
  let result := convertHttpStatusCodeToExecutionResult statusCode
  if errorCode = 0 then result
  else if !result.successful && result != failureExecutionResult scUnknown then result
  else retryExecutionResult scHttp2ClientHttpRequestCloseError

/-- The method's text in the request, `kHttpMethodGetTag` or
`kHttpMethodPostTag`; `SendHttpRequest` sends no other method. -/
def methodTag : HttpMethod → Option (List Char)
  | .GET => some "GET".toList
  | .POST => some "POST".toList
  | _ => none

/-- An `AsyncContext<HttpRequest, HttpResponse>` by what the connection reads
of it: the request's method and what `GetEscapedUriWithQuery` answers. -/
structure HttpContext where
  method : HttpMethod
  escapedUri : ExecutionResult
  deriving DecidableEq, Repr

/-- What is posted to the connection's `io_service`. -/
inductive Handler where
  /-- `Execute`'s post of `SendHttpRequest`. -/
  | sendHttpRequest (requestId : Nat) (httpContext : HttpContext)
  /-- `OnConnectionCreated`'s post, which sets `is_ready_`. -/
  | connectionCreated
  /-- `OnConnectionError`'s post, which cancels the pending calls. -/
  | connectionError
  /-- `Stop`'s post of `session_->shutdown()`. -/
  | sessionShutdown
  /-- `Stop`'s post of `io_service_->stop()`. -/
  | ioServiceStop
  deriving DecidableEq, Repr

/-- Who calls `Stop`: the pool's `Stop`, or `RecycleConnection`. -/
inductive StopCaller where
  | poolStop
  | recycleConnection
  deriving DecidableEq, Repr

/-- Who calls `CancelPendingCallbacks`. -/
inductive Canceller where
  | onConnectionError
  | stop (caller : StopCaller)
  deriving DecidableEq, Repr

/-- The function that finished a context. -/
inductive FinishedBy where
  | sendHttpRequest
  | onRequestResponseClosed
  | cancelPendingCallbacks (canceller : Canceller)
  deriving DecidableEq, Repr

/-- One `Finish()` of a context: its request id, its result and who finished it. -/
structure Finished where
  requestId : Nat
  result : ExecutionResult
  finishedBy : FinishedBy
  deriving DecidableEq, Repr

/-- What the source means a finish to be: a context cancelled because the
connection dropped is to be retried, and only `OnRequestResponseClosed`
finishes a context with success. -/
structure Finished.Sound (f : Finished) : Prop where
  retry_of_dropped : f.finishedBy = .cancelPendingCallbacks .onConnectionError ∨
      f.finishedBy = .cancelPendingCallbacks (.stop .recycleConnection) →
    f.result = retryExecutionResult scHttp2ClientConnectionDropped
  closed_of_success : f.result = successExecutionResult → f.finishedBy = .onRequestResponseClosed

namespace Finished.Sound

variable {f : Finished}

theorem of_retry (h : f.result = retryExecutionResult scHttp2ClientConnectionDropped) : f.Sound where
  retry_of_dropped := fun _ => h
  closed_of_success := fun hs => by
    rw [h] at hs
    cases hs

theorem of_not_cancelled (h : ∀ canceller, f.finishedBy ≠ .cancelPendingCallbacks canceller)
    (hne : f.result ≠ successExecutionResult ∨ f.finishedBy = .onRequestResponseClosed) :
    f.Sound where
  retry_of_dropped := by
    rintro (hby | hby)
    · exact absurd hby (h _)
    · exact absurd hby (h _)
  closed_of_success := fun hs => hne.resolve_left (not_not.mpr hs)

end Finished.Sound

/-- The fields of `HttpConnection` that the pending calls depend on. `ioQueue`
is what was posted to `io_service_` and has not run, and `ioRunning` says that
the worker thread is inside `io_service_->run()`. -/
structure HttpConnection where
  isReady : Bool
  isDropped : Bool
  ioRunning : Bool
  ioQueue : List Handler
  pendingNetworkCalls : ConcurrentMap Nat HttpContext

namespace HttpConnection

/-- `post(*io_service_, ...)`: behind everything posted before. -/
def post (c : HttpConnection) (handler : Handler) : HttpConnection :=
  { c with ioQueue := c.ioQueue ++ [handler] }

/-- The erase before every `Finish()`: a context is finished only by the call
that erases its request id. -/
def eraseThenFinish (c : HttpConnection) (requestId : Nat) (result : ExecutionResult)
    (finishedBy : FinishedBy) : HttpConnection × List Finished :=
  match c.pendingNetworkCalls.erase requestId with
  | .ok m => ({ c with pendingNetworkCalls := m }, [⟨requestId, result, finishedBy⟩])
  | .error _ => (c, [])

/-- `OnConnectionCreated`. -/
def onConnectionCreated (c : HttpConnection) : HttpConnection := c.post .connectionCreated

/-- `OnConnectionError`. -/
def onConnectionError (c : HttpConnection) : HttpConnection := c.post .connectionError

/-- The result `CancelPendingCallbacks` gives a pending context. -/
def droppedResult (isDropped : Bool) : ExecutionResult :=
  if isDropped then retryExecutionResult scHttp2ClientConnectionDropped
  else failureExecutionResult scHttp2ClientConnectionDropped

/-- One key of `CancelPendingCallbacks`'s loop: `Find`, `Erase`, `Finish()`. -/
def cancelKey (canceller : Canceller) (acc : HttpConnection × List Finished) (key : Nat) :
    HttpConnection × List Finished :=
  match acc.1.pendingNetworkCalls.find key with
  | none => acc
  | some _ =>
    let finish := acc.1.eraseThenFinish key (droppedResult acc.1.isDropped)
      (.cancelPendingCallbacks canceller)
    (finish.1, acc.2 ++ finish.2)

/-- `CancelPendingCallbacks`: the keys pending when it reads them. -/
def cancelPendingCallbacks (c : HttpConnection) (canceller : Canceller) :
    HttpConnection × List Finished :=
  c.pendingNetworkCalls.keys.foldl (cancelKey canceller) (c, [])

/-- `SendHttpRequest`, with `submitFailed` what `session_->submit` reports. The
request id comes back when the request went out, for its `on_close` to come. -/
def sendHttpRequest (c : HttpConnection) (requestId : Nat) (httpContext : HttpContext)
    (submitFailed : Bool) : HttpConnection × List Finished × Option Nat :=
  match methodTag httpContext.method with
  | none =>
    let finish := c.eraseThenFinish requestId
      (failureExecutionResult scHttp2ClientHttpMethodNotSupported) .sendHttpRequest
    (finish.1, finish.2, none)
  | some _ =>
    if !httpContext.escapedUri.successful then
      let finish := c.eraseThenFinish requestId httpContext.escapedUri .sendHttpRequest
      (finish.1, finish.2, none)
    else if submitFailed then
      match c.pendingNetworkCalls.erase requestId with
      | .ok m =>
        (({ c with pendingNetworkCalls := m } : HttpConnection).onConnectionError,
          [⟨requestId, retryExecutionResult scHttp2ClientFailedToIssueHttpRequest,
            .sendHttpRequest⟩], none)
      | .error _ => (c, [], none)
    else (c, [], some requestId)

/-- `OnRequestResponseClosed`. -/
def onRequestResponseClosed (c : HttpConnection) (requestId statusCode errorCode : Nat) :
    HttpConnection × List Finished :=
  c.eraseThenFinish requestId (closedResult statusCode errorCode) .onRequestResponseClosed

/-- The worker runs one handler, already taken off the queue. -/
def runHandler (c : HttpConnection) (submitFailed : Bool) :
    Handler → HttpConnection × List Finished × Option Nat
  | .sendHttpRequest requestId httpContext => c.sendHttpRequest requestId httpContext submitFailed
  | .connectionCreated => ({ c with isReady := true }, [], none)
  | .connectionError =>
    let cancel := cancelPendingCallbacks { c with isReady := false, isDropped := true }
      .onConnectionError
    (cancel.1, cancel.2, none)
  | .sessionShutdown => (c, [], none)
  | .ioServiceStop => ({ c with ioRunning := false }, [], none)

/-- `Stop` up to its join: the shutdown of the session and the stop of the io
service go behind everything posted before. -/
def stopPosts (c : HttpConnection) : HttpConnection :=
  ({ c.post .sessionShutdown with isReady := false } : HttpConnection).post .ioServiceStop

/-- The worker when `io_service_->run()` throws. -/
def runThrew (c : HttpConnection) : HttpConnection :=
  { c with ioRunning := false, isDropped := true, isReady := false }

/-- `Reset`. -/
def reset (c : HttpConnection) : HttpConnection :=
  { c with isReady := false, isDropped := false }

/-- `Init`: a new io service, with nothing posted. -/
def init (c : HttpConnection) : HttpConnection := { c with ioQueue := [] }

/-- `Run`: a new worker runs the io service. -/
def run (c : HttpConnection) : HttpConnection := { c with ioRunning := true }

/-! ### What each function does to the pending calls -/

variable (c : HttpConnection)

@[simp] theorem post_pendingNetworkCalls (handler : Handler) :
    (c.post handler).pendingNetworkCalls = c.pendingNetworkCalls := rfl

@[simp] theorem post_isDropped (handler : Handler) : (c.post handler).isDropped = c.isDropped := rfl

@[simp] theorem post_ioRunning (handler : Handler) : (c.post handler).ioRunning = c.ioRunning := rfl

theorem eraseThenFinish_of_mem {requestId : Nat} (h : requestId ∈ c.pendingNetworkCalls)
    (result : ExecutionResult) (finishedBy : FinishedBy) :
    c.eraseThenFinish requestId result finishedBy =
      ({ c with pendingNetworkCalls := AList.erase requestId c.pendingNetworkCalls },
        [⟨requestId, result, finishedBy⟩]) := by
  rw [eraseThenFinish, ConcurrentMap.erase_of_mem h]

theorem eraseThenFinish_of_not_mem {requestId : Nat} (h : requestId ∉ c.pendingNetworkCalls)
    (result : ExecutionResult) (finishedBy : FinishedBy) :
    c.eraseThenFinish requestId result finishedBy = (c, []) := by
  simp [eraseThenFinish, ConcurrentMap.erase, h]

theorem eraseThenFinish_takesOut (requestId : Nat) (result : ExecutionResult)
    (finishedBy : FinishedBy) :
    TakesOut c.pendingNetworkCalls (c.eraseThenFinish requestId result finishedBy).1.pendingNetworkCalls
      ((c.eraseThenFinish requestId result finishedBy).2.map (·.requestId)) := by
  by_cases h : requestId ∈ c.pendingNetworkCalls
  · rw [eraseThenFinish_of_mem c h]
    exact TakesOut.erase h
  · rw [eraseThenFinish_of_not_mem c h]
    exact TakesOut.refl _

theorem mem_eraseThenFinish {requestId : Nat} {result : ExecutionResult} {finishedBy : FinishedBy}
    {f : Finished} (hf : f ∈ (c.eraseThenFinish requestId result finishedBy).2) :
    f = ⟨requestId, result, finishedBy⟩ := by
  by_cases h : requestId ∈ c.pendingNetworkCalls
  · rw [eraseThenFinish_of_mem c h] at hf
    exact List.mem_singleton.mp hf
  · rw [eraseThenFinish_of_not_mem c h] at hf
    exact absurd hf List.not_mem_nil

@[simp] theorem eraseThenFinish_isDropped (requestId : Nat) (result : ExecutionResult)
    (finishedBy : FinishedBy) :
    (c.eraseThenFinish requestId result finishedBy).1.isDropped = c.isDropped := by
  unfold eraseThenFinish
  split <;> rfl

@[simp] theorem eraseThenFinish_ioRunning (requestId : Nat) (result : ExecutionResult)
    (finishedBy : FinishedBy) :
    (c.eraseThenFinish requestId result finishedBy).1.ioRunning = c.ioRunning := by
  unfold eraseThenFinish
  split <;> rfl

/-- `CancelPendingCallbacks`'s loop over keys that are all pending: each is
erased and finished, with the result the dropped flag gives. -/
theorem foldl_cancelKey (canceller : Canceller) (keys : List Nat) (hnd : keys.Nodup) :
    ∀ (c : HttpConnection) (fs : List Finished), (∀ k ∈ keys, k ∈ c.pendingNetworkCalls) →
      keys.foldl (cancelKey canceller) (c, fs) =
        ({ c with pendingNetworkCalls :=
            keys.foldl (fun m k => AList.erase k m) c.pendingNetworkCalls },
          fs ++ keys.map fun k => ⟨k, droppedResult c.isDropped, .cancelPendingCallbacks canceller⟩) := by
  induction keys with
  | nil => intro c fs _; simp
  | cons k keys ih =>
    intro c fs hmem
    obtain ⟨hk, hnd⟩ := List.nodup_cons.mp hnd
    have hkmem : k ∈ c.pendingNetworkCalls := hmem k List.mem_cons_self
    obtain ⟨v, hv⟩ := Option.isSome_iff_exists.mp (ConcurrentMap.find_isSome_iff.mpr hkmem)
    have hstep : cancelKey canceller (c, fs) k =
        ({ c with pendingNetworkCalls := AList.erase k c.pendingNetworkCalls },
          fs ++ [⟨k, droppedResult c.isDropped, .cancelPendingCallbacks canceller⟩]) := by
      simp only [cancelKey, hv, eraseThenFinish_of_mem c hkmem]
    -- the other keys are still pending after `k` is erased
    have hrest : ∀ k' ∈ keys, k' ∈ AList.erase k c.pendingNetworkCalls := by
      intro k' hk'
      exact AList.mem_erase.mpr ⟨fun he => hk (he ▸ hk'), hmem k' (List.mem_cons_of_mem k hk')⟩
    rw [List.foldl_cons, hstep, ih hnd _ _ hrest]
    simp

theorem droppedResult_ne_success (isDropped : Bool) :
    droppedResult isDropped ≠ successExecutionResult := by
  cases isDropped <;>
    simp [droppedResult, retryExecutionResult, failureExecutionResult, successExecutionResult]

theorem cancelPendingCallbacks_eq (canceller : Canceller) :
    c.cancelPendingCallbacks canceller =
      ({ c with pendingNetworkCalls :=
          c.pendingNetworkCalls.keys.foldl (fun m k => AList.erase k m) c.pendingNetworkCalls },
        c.pendingNetworkCalls.keys.map
          fun k => ⟨k, droppedResult c.isDropped, .cancelPendingCallbacks canceller⟩) := by
  rw [cancelPendingCallbacks, foldl_cancelKey canceller c.pendingNetworkCalls.keys
    c.pendingNetworkCalls.nodupKeys c []
    (fun k hk => AList.mem_keys.mp hk), List.nil_append]

theorem cancelPendingCallbacks_takesOut (canceller : Canceller) :
    TakesOut c.pendingNetworkCalls (c.cancelPendingCallbacks canceller).1.pendingNetworkCalls
      ((c.cancelPendingCallbacks canceller).2.map (·.requestId)) := by
  rw [cancelPendingCallbacks_eq]
  simp only [List.map_map, Function.comp_def, List.map_id']
  exact takesOut_foldl_erase c.pendingNetworkCalls.keys c.pendingNetworkCalls.nodupKeys _
    (fun k hk => AList.mem_keys.mp hk)

/-- Nothing is pending after `CancelPendingCallbacks`. -/
theorem not_mem_cancelPendingCallbacks (canceller : Canceller) (k : Nat) :
    k ∉ (c.cancelPendingCallbacks canceller).1.pendingNetworkCalls := by
  have h := cancelPendingCallbacks_takesOut c canceller
  rw [cancelPendingCallbacks_eq] at h ⊢
  simp only [List.map_map, Function.comp_def, List.map_id'] at h
  exact h.not_mem_of_keys k

theorem mem_cancelPendingCallbacks {canceller : Canceller} {f : Finished}
    (hf : f ∈ (c.cancelPendingCallbacks canceller).2) :
    f.result = droppedResult c.isDropped ∧ f.finishedBy = .cancelPendingCallbacks canceller := by
  rw [cancelPendingCallbacks_eq] at hf
  obtain ⟨k, -, rfl⟩ := List.mem_map.mp hf
  exact ⟨rfl, rfl⟩

@[simp] theorem cancelPendingCallbacks_isDropped (canceller : Canceller) :
    (c.cancelPendingCallbacks canceller).1.isDropped = c.isDropped := by
  rw [cancelPendingCallbacks_eq]

@[simp] theorem cancelPendingCallbacks_ioRunning (canceller : Canceller) :
    (c.cancelPendingCallbacks canceller).1.ioRunning = c.ioRunning := by
  rw [cancelPendingCallbacks_eq]

/-- What `SendHttpRequest` can do: erase its context and finish it with a
result that is not a success, posting `OnConnectionError` or not; or submit the
request. -/
theorem sendHttpRequest_cases (requestId : Nat) (httpContext : HttpContext) (submitFailed : Bool) :
    (∃ result, result ≠ successExecutionResult ∧ ∃ posted : Bool,
      c.sendHttpRequest requestId httpContext submitFailed =
        ((if posted then (c.eraseThenFinish requestId result .sendHttpRequest).1.onConnectionError
          else (c.eraseThenFinish requestId result .sendHttpRequest).1),
          (c.eraseThenFinish requestId result .sendHttpRequest).2, none)) ∨
    c.sendHttpRequest requestId httpContext submitFailed = (c, [], some requestId) := by
  unfold sendHttpRequest
  split
  · -- an unsupported method
    exact .inl ⟨_, failureExecutionResult_ne_success _, false, rfl⟩
  · split
    · -- a URI that does not escape finishes with `GetEscapedUriWithQuery`'s failure
      rename_i hescape
      have hne : httpContext.escapedUri ≠ successExecutionResult := by simpa using hescape
      exact .inl ⟨_, hne, false, rfl⟩
    · split
      · have hretry : retryExecutionResult scHttp2ClientFailedToIssueHttpRequest ≠
            successExecutionResult := by
          simp [retryExecutionResult, successExecutionResult]
        split
        · rename_i m hm
          obtain ⟨hmem, rfl⟩ := ConcurrentMap.erase_eq_ok hm
          refine .inl ⟨_, hretry, true, ?_⟩
          rw [eraseThenFinish_of_mem c hmem]
          rfl
        · -- the erase failed: `SendHttpRequest` returns before `OnConnectionError`
          rename_i e he
          refine .inl ⟨_, hretry, false, ?_⟩
          rw [eraseThenFinish_of_not_mem c (ConcurrentMap.erase_eq_error he).1]
          rfl
      · exact .inr rfl

section SendHttpRequest

variable (requestId : Nat) (httpContext : HttpContext) (submitFailed : Bool)

theorem sendHttpRequest_takesOut :
    TakesOut c.pendingNetworkCalls
      (c.sendHttpRequest requestId httpContext submitFailed).1.pendingNetworkCalls
      ((c.sendHttpRequest requestId httpContext submitFailed).2.1.map (·.requestId)) := by
  rcases sendHttpRequest_cases c requestId httpContext submitFailed with ⟨result, -, posted, h⟩ | h
  · rw [h]
    cases posted <;> exact eraseThenFinish_takesOut c requestId result .sendHttpRequest
  · rw [h]
    exact TakesOut.refl _

theorem mem_sendHttpRequest {f : Finished}
    (hf : f ∈ (c.sendHttpRequest requestId httpContext submitFailed).2.1) :
    f.finishedBy = .sendHttpRequest ∧ f.result ≠ successExecutionResult := by
  rcases sendHttpRequest_cases c requestId httpContext submitFailed with ⟨result, hne, posted, h⟩ | h
  · rw [h] at hf
    rw [mem_eraseThenFinish c hf]
    exact ⟨rfl, hne⟩
  · rw [h] at hf
    exact absurd hf List.not_mem_nil

@[simp] theorem sendHttpRequest_isDropped :
    (c.sendHttpRequest requestId httpContext submitFailed).1.isDropped = c.isDropped := by
  rcases sendHttpRequest_cases c requestId httpContext submitFailed with ⟨result, -, posted, h⟩ | h
  · rw [h]
    cases posted <;> simp [onConnectionError]
  · rw [h]

end SendHttpRequest

section RunHandler

variable (submitFailed : Bool) (handler : Handler)

theorem runHandler_takesOut :
    TakesOut c.pendingNetworkCalls (c.runHandler submitFailed handler).1.pendingNetworkCalls
      ((c.runHandler submitFailed handler).2.1.map (·.requestId)) := by
  cases handler with
  | sendHttpRequest requestId httpContext => exact sendHttpRequest_takesOut c _ _ _
  | connectionError =>
    exact cancelPendingCallbacks_takesOut { c with isReady := false, isDropped := true } _
  | connectionCreated | sessionShutdown | ioServiceStop => exact TakesOut.refl _

/-- The worker finishes contexts in `SendHttpRequest`, never with success, and
in the cancel after a connection error, with a retry. -/
theorem mem_runHandler {f : Finished} (hf : f ∈ (c.runHandler submitFailed handler).2.1) :
    (f.finishedBy = .sendHttpRequest ∧ f.result ≠ successExecutionResult) ∨
      (f.finishedBy = .cancelPendingCallbacks .onConnectionError ∧
        f.result = retryExecutionResult scHttp2ClientConnectionDropped) := by
  cases handler with
  | sendHttpRequest requestId httpContext => exact .inl (mem_sendHttpRequest c _ _ _ hf)
  | connectionError =>
    -- `is_dropped_` is set before the cancel
    obtain ⟨hresult, hby⟩ := mem_cancelPendingCallbacks _ hf
    exact .inr ⟨hby, hresult⟩
  | connectionCreated | sessionShutdown | ioServiceStop => exact absurd hf List.not_mem_nil

/-- No handler clears `is_dropped_`. -/
theorem runHandler_isDropped (hd : c.isDropped = true) :
    (c.runHandler submitFailed handler).1.isDropped = true := by
  cases handler with
  | sendHttpRequest requestId httpContext => simpa [runHandler] using hd
  | connectionError => simp [runHandler]
  | connectionCreated | sessionShutdown | ioServiceStop => exact hd

end RunHandler

theorem onRequestResponseClosed_takesOut (requestId statusCode errorCode : Nat) :
    TakesOut c.pendingNetworkCalls
      (c.onRequestResponseClosed requestId statusCode errorCode).1.pendingNetworkCalls
      ((c.onRequestResponseClosed requestId statusCode errorCode).2.map (·.requestId)) :=
  eraseThenFinish_takesOut c _ _ _

end HttpConnection

/-! ## The connection among its threads -/

/-- A `Stop` between its posts and its return. -/
inductive StopPhase where
  /-- Posted, and waiting in `worker_->join()`. -/
  | joining (caller : StopCaller)
  /-- Joined, and `CancelPendingCallbacks` done. -/
  | cancelled (caller : StopCaller)
  deriving DecidableEq, Repr

/-- The connection, the session's open streams, the threads in `Execute` and
`Stop`, and the record of what `Execute` accepted and what was finished. -/
structure World where
  connection : HttpConnection
  /-- The current session's `on_connect` has not come. -/
  sessionConnecting : Bool
  /-- Request ids of submitted requests whose `on_close` has not come. -/
  openStreams : List Nat
  /-- `Execute` calls that read `is_ready_` as true and have not inserted. -/
  executing : List HttpContext
  stopping : Option StopPhase
  /-- The id `Uuid::GenerateUuid` gives next. -/
  nextRequestId : Nat
  /-- Request ids of the `Execute` calls that returned success. -/
  accepted : List Nat
  /-- Every `Finish()` so far, in order. -/
  finished : List Finished

/-- The atomic actions of the threads around one connection. -/
inductive Event where
  /-- `Execute` reads `is_ready_`. -/
  | executeReadsReady (httpContext : HttpContext)
  /-- `Execute`, past its read, inserts under a new id and posts. -/
  | executeInserts (httpContext : HttpContext)
  /-- The worker runs the next handler; `submitFailed` is `session_->submit`'s. -/
  | workerRuns (submitFailed : Bool)
  | onConnect
  | onError
  | onClose (requestId statusCode errorCode : Nat)
  /-- `io_service_->run()` throws on the worker. -/
  | workerThrows
  /-- `Stop` posts, called by `caller`. -/
  | stopPosts (caller : StopCaller)
  /-- The worker has ended: `Stop`'s join returns and it cancels. -/
  | stopJoined
  /-- `Stop` returns; `RecycleConnection` goes on with `Reset`, `Init`, `Run`. -/
  | stopReturns
  deriving DecidableEq, Repr

namespace World

/-- A connection that `GetConnection` created, after `Init` and `Run`. -/
def initial : World where
  connection := ⟨false, false, true, [], ∅⟩
  sessionConnecting := true
  openStreams := []
  executing := []
  stopping := none
  nextRequestId := 0
  accepted := []
  finished := []

/-- `Execute`'s insert and post, for a call past its read of `is_ready_`. -/
def executeInserts (w : World) (httpContext : HttpContext) : World :=
  let requestId := w.nextRequestId
  let w' := { w with executing := w.executing.erase httpContext, nextRequestId := requestId + 1 }
  match w.connection.pendingNetworkCalls.insert requestId httpContext with
  | .ok m =>
    { w' with
      connection := ({ w.connection with pendingNetworkCalls := m } : HttpConnection).post
        (.sendHttpRequest requestId httpContext)
      accepted := w.accepted ++ [requestId] }
  | .error _ => w'

/-- The worker runs the head of the io queue. -/
def workerRuns (w : World) (submitFailed : Bool) : World :=
  match w.connection.ioQueue with
  | [] => w
  | handler :: rest =>
    let ran := ({ w.connection with ioQueue := rest } : HttpConnection).runHandler submitFailed
      handler
    { w with
      connection := ran.1
      finished := w.finished ++ ran.2.1
      openStreams := w.openStreams ++ ran.2.2.toList }

/-- `on_close` of a submitted request. -/
def onClose (w : World) (requestId statusCode errorCode : Nat) : World :=
  let closed := w.connection.onRequestResponseClosed requestId statusCode errorCode
  { w with
    connection := closed.1
    openStreams := w.openStreams.erase requestId
    finished := w.finished ++ closed.2 }

/-- What follows `Stop`'s join: `CancelPendingCallbacks`. -/
def stopCancels (w : World) (caller : StopCaller) : World :=
  let cancel := w.connection.cancelPendingCallbacks (.stop caller)
  { w with
    connection := cancel.1
    finished := w.finished ++ cancel.2
    stopping := some (.cancelled caller) }

/-- `RecycleConnection` after `Stop`: `Reset`, `Init` and `Run` give a new
session on a new io service. -/
def recycled (w : World) : World :=
  { w with
    connection := w.connection.reset.init.run
    sessionConnecting := true
    openStreams := []
    stopping := none }

def step (w : World) : Event → World
  | .executeReadsReady httpContext =>
    -- a read of `false` returns `SC_HTTP2_CLIENT_NO_CONNECTION_ESTABLISHED`
    if w.connection.isReady then { w with executing := httpContext :: w.executing } else w
  | .executeInserts httpContext =>
    if httpContext ∈ w.executing then w.executeInserts httpContext else w
  | .workerRuns submitFailed =>
    if w.connection.ioRunning then w.workerRuns submitFailed else w
  | .onConnect =>
    if w.connection.ioRunning && w.sessionConnecting then
      { w with connection := w.connection.onConnectionCreated, sessionConnecting := false }
    else w
  | .onError =>
    if w.connection.ioRunning then { w with connection := w.connection.onConnectionError } else w
  | .onClose requestId statusCode errorCode =>
    if w.connection.ioRunning && requestId ∈ w.openStreams then
      w.onClose requestId statusCode errorCode
    else w
  | .workerThrows =>
    if w.connection.ioRunning then { w with connection := w.connection.runThrew } else w
  | .stopPosts caller =>
    if w.stopping.isSome then w
    -- `RecycleConnection` returns at once on a connection that is not dropped
    else if caller = .recycleConnection ∧ w.connection.isDropped = false then w
    else { w with connection := w.connection.stopPosts, stopping := some (.joining caller) }
  | .stopJoined =>
    match w.stopping with
    | some (.joining caller) => if w.connection.ioRunning then w else w.stopCancels caller
    | _ => w
  | .stopReturns =>
    match w.stopping with
    | some (.cancelled .poolStop) => { w with stopping := none }
    | some (.cancelled .recycleConnection) => w.recycled
    | _ => w

/-- The world after a sequence of events. -/
def run (w : World) (events : List Event) : World := events.foldl step w

@[simp] theorem executeInserts_stopping (w : World) (httpContext : HttpContext) :
    (w.executeInserts httpContext).stopping = w.stopping := by
  unfold executeInserts
  dsimp only
  split <;> rfl

@[simp] theorem executeInserts_finished (w : World) (httpContext : HttpContext) :
    (w.executeInserts httpContext).finished = w.finished := by
  unfold executeInserts
  dsimp only
  split <;> rfl

@[simp] theorem executeInserts_isDropped (w : World) (httpContext : HttpContext) :
    (w.executeInserts httpContext).connection.isDropped = w.connection.isDropped := by
  unfold executeInserts
  dsimp only
  split <;> rfl

@[simp] theorem executeInserts_ioRunning (w : World) (httpContext : HttpContext) :
    (w.executeInserts httpContext).connection.ioRunning = w.connection.ioRunning := by
  unfold executeInserts
  dsimp only
  split <;> rfl

@[simp] theorem workerRuns_stopping (w : World) (submitFailed : Bool) :
    (w.workerRuns submitFailed).stopping = w.stopping := by
  unfold workerRuns
  split <;> rfl

/-- The worker never clears `is_dropped_`. -/
theorem workerRuns_isDropped {w : World} (hd : w.connection.isDropped = true) (submitFailed : Bool) :
    (w.workerRuns submitFailed).connection.isDropped = true := by
  unfold workerRuns
  split
  · exact hd
  · exact HttpConnection.runHandler_isDropped _ _ _ hd

/-! ### What a step does to the record of calls -/

/-- What one step can do to the record: accept `Execute`'s fresh request id,
or finish contexts whose ids it takes out of the map, as the source means a
finish to be as long as a recycling `Stop` finds the connection dropped. -/
inductive Moves (w w' : World) : Prop where
  | accept (httpContext : HttpContext) (hfresh : w.nextRequestId ∉ w.connection.pendingNetworkCalls)
      (hpending : w'.connection.pendingNetworkCalls =
        AList.insert w.nextRequestId httpContext w.connection.pendingNetworkCalls)
      (hnext : w'.nextRequestId = w.nextRequestId + 1)
      (hfinished : w'.finished = w.finished)
      (haccepted : w'.accepted = w.accepted ++ [w.nextRequestId])
  | finish (fs : List Finished)
      (htake : TakesOut w.connection.pendingNetworkCalls w'.connection.pendingNetworkCalls
        (fs.map (·.requestId)))
      (hnext : w.nextRequestId ≤ w'.nextRequestId)
      (hfinished : w'.finished = w.finished ++ fs)
      (haccepted : w'.accepted = w.accepted)
      (hsound : (w.stopping = some (.joining .recycleConnection) → w.connection.isDropped = true) →
        ∀ f ∈ fs, f.Sound)

variable {w w' : World}

/-- A step that leaves the map, the log and the accepted ids alone. -/
theorem Moves.of_frame (hp : w'.connection.pendingNetworkCalls = w.connection.pendingNetworkCalls)
    (hn : w.nextRequestId ≤ w'.nextRequestId) (hf : w'.finished = w.finished)
    (ha : w'.accepted = w.accepted) : Moves w w' :=
  .finish [] (hp ▸ TakesOut.refl _) hn (by rw [hf, List.append_nil]) ha
    (fun _ _ hf => absurd hf List.not_mem_nil)

theorem executeInserts_moves (w : World) (httpContext : HttpContext) :
    Moves w (w.executeInserts httpContext) := by
  unfold executeInserts
  dsimp only
  split
  · rename_i m hm
    obtain ⟨hfresh, rfl⟩ := ConcurrentMap.insert_eq_ok hm
    exact .accept httpContext hfresh rfl rfl rfl rfl
  · -- the insert failed: the id is spent and the call returns the failure
    exact .of_frame rfl (Nat.le_succ _) rfl rfl

theorem workerRuns_moves (w : World) (submitFailed : Bool) : Moves w (w.workerRuns submitFailed) := by
  unfold workerRuns
  dsimp only
  split
  · exact .of_frame rfl le_rfl rfl rfl
  · rename_i handler rest _
    refine .finish _ (HttpConnection.runHandler_takesOut { w.connection with ioQueue := rest }
      submitFailed handler) le_rfl rfl rfl ?_
    intro _ f hf
    rcases HttpConnection.mem_runHandler _ submitFailed handler hf with ⟨hby, hne⟩ | ⟨-, hretry⟩
    · exact .of_not_cancelled (fun _ => by rw [hby]; exact FinishedBy.noConfusion) (.inl hne)
    · exact .of_retry hretry

theorem onClose_moves (w : World) (requestId statusCode errorCode : Nat) :
    Moves w (w.onClose requestId statusCode errorCode) := by
  refine .finish _ (HttpConnection.onRequestResponseClosed_takesOut _ _ _ _) le_rfl rfl rfl ?_
  intro _ f hf
  rw [HttpConnection.mem_eraseThenFinish _ hf]
  exact .of_not_cancelled (fun _ => FinishedBy.noConfusion) (.inr rfl)

theorem stopCancels_moves {caller : StopCaller} (hjoin : w.stopping = some (.joining caller)) :
    Moves w (w.stopCancels caller) := by
  refine .finish _ (HttpConnection.cancelPendingCallbacks_takesOut _ _) le_rfl rfl rfl ?_
  intro hrecycle f hf
  obtain ⟨hresult, hby⟩ := HttpConnection.mem_cancelPendingCallbacks _ hf
  cases caller with
  | recycleConnection =>
    -- `RecycleConnection` stops only a dropped connection
    rw [hrecycle hjoin] at hresult
    exact .of_retry hresult
  | poolStop =>
    refine ⟨?_, fun hs => absurd (hresult ▸ hs) (HttpConnection.droppedResult_ne_success _)⟩
    rintro (h | h) <;> rw [hby] at h <;> cases h

/-- Every step moves the record of calls in one of the two ways. -/
theorem step_moves (w : World) (e : Event) : Moves w (w.step e) := by
  cases e with
  | executeInserts httpContext =>
    simp only [step]
    split
    · exact executeInserts_moves w httpContext
    · exact .of_frame rfl le_rfl rfl rfl
  | workerRuns submitFailed =>
    simp only [step]
    split
    · exact workerRuns_moves w submitFailed
    · exact .of_frame rfl le_rfl rfl rfl
  | onClose requestId statusCode errorCode =>
    simp only [step]
    split
    · exact onClose_moves w requestId statusCode errorCode
    · exact .of_frame rfl le_rfl rfl rfl
  | stopJoined =>
    simp only [step]
    split
    · split
      · exact .of_frame rfl le_rfl rfl rfl
      · rename_i caller hjoin _
        exact stopCancels_moves hjoin
    · exact .of_frame rfl le_rfl rfl rfl
  | executeReadsReady httpContext =>
    simp only [step]
    split <;> exact .of_frame rfl le_rfl rfl rfl
  | onConnect | onError | workerThrows =>
    simp only [step]
    split <;> exact .of_frame rfl le_rfl rfl rfl
  | stopPosts caller =>
    simp only [step]
    split
    · exact .of_frame rfl le_rfl rfl rfl
    · split <;> exact .of_frame rfl le_rfl rfl rfl
  | stopReturns =>
    simp only [step]
    split <;> exact .of_frame rfl le_rfl rfl rfl

/-! ### The invariant of every run -/

/-- The record of calls: no request id is logged twice or logged while
pending, ids come from the counter, and the accepted ids are the pending and
the finished ones. -/
structure Recorded (w : World) : Prop where
  settled : Settled w.connection.pendingNetworkCalls (w.finished.map (·.requestId))
  pending_lt : ∀ k ∈ w.connection.pendingNetworkCalls, k < w.nextRequestId
  finished_lt : ∀ f ∈ w.finished, f.requestId < w.nextRequestId
  mem_accepted : ∀ k, k ∈ w.accepted ↔
    k ∈ w.connection.pendingNetworkCalls ∨ k ∈ w.finished.map (·.requestId)

theorem Moves.recorded (hm : Moves w w') (h : w.Recorded) : w'.Recorded := by
  cases hm with
  | accept httpContext hfresh hpending hnext hfinished haccepted =>
    -- the fresh id is above every logged id, so it is not in the log
    have hnotlog : w.nextRequestId ∉ w.finished.map (·.requestId) := by
      intro hmem
      obtain ⟨f, hf, hid⟩ := List.mem_map.mp hmem
      exact absurd (h.finished_lt f hf) (hid ▸ lt_irrefl _)
    refine ⟨?_, ?_, ?_, ?_⟩
    · rw [hpending, hfinished]
      exact h.settled.insert hnotlog httpContext
    · intro k hk
      rw [hpending] at hk
      rw [hnext]
      rcases (AList.mem_insert _).mp hk with rfl | hk
      · exact Nat.lt_succ_self _
      · exact Nat.lt_succ_of_lt (h.pending_lt k hk)
    · intro f hf
      rw [hfinished] at hf
      rw [hnext]
      exact Nat.lt_succ_of_lt (h.finished_lt f hf)
    · intro k
      rw [haccepted, hpending, hfinished, List.mem_append, h.mem_accepted, List.mem_singleton,
        AList.mem_insert]
      tauto
  | finish fs htake hnext hfinished haccepted _ =>
    refine ⟨?_, ?_, ?_, ?_⟩
    · rw [hfinished, List.map_append]
      exact h.settled.takeOut htake
    · intro k hk
      exact lt_of_lt_of_le (h.pending_lt k ((htake.mem_iff k).mp hk).1) hnext
    · intro f hf
      rw [hfinished] at hf
      rcases List.mem_append.mp hf with hf | hf
      · exact lt_of_lt_of_le (h.finished_lt f hf) hnext
      · exact lt_of_lt_of_le (h.pending_lt _ (htake.mem _ (List.mem_map.mpr ⟨f, hf, rfl⟩))) hnext
    · intro k
      rw [haccepted, hfinished, h.mem_accepted, htake.mem_or, List.map_append, List.mem_append]
      tauto

theorem Moves.sound (hm : Moves w w')
    (hd : w.stopping = some (.joining .recycleConnection) → w.connection.isDropped = true)
    (h : ∀ f ∈ w.finished, f.Sound) : ∀ f ∈ w'.finished, f.Sound := by
  cases hm with
  | accept _ _ _ _ hfinished _ =>
    rw [hfinished]
    exact h
  | finish fs _ _ hfinished _ hsound =>
    intro f hf
    rw [hfinished] at hf
    rcases List.mem_append.mp hf with hf | hf
    · exact h f hf
    · exact hsound hd f hf

/-- A `Stop` that `RecycleConnection` began finds the connection dropped until
it cancels: nothing but `Reset` clears `is_dropped_`, and `Reset` comes after. -/
theorem step_recycle_dropped (w : World) (e : Event)
    (h : w.stopping = some (.joining .recycleConnection) → w.connection.isDropped = true) :
    (w.step e).stopping = some (.joining .recycleConnection) →
      (w.step e).connection.isDropped = true := by
  cases e with
  | executeInserts httpContext =>
    simp only [step]
    split
    · rw [executeInserts_stopping, executeInserts_isDropped]
      exact h
    · exact h
  | workerRuns submitFailed =>
    simp only [step]
    split
    · rw [workerRuns_stopping]
      exact fun hs => workerRuns_isDropped (h hs) submitFailed
    · exact h
  | onClose requestId statusCode errorCode =>
    simp only [step]
    split
    · simpa [onClose, HttpConnection.onRequestResponseClosed] using h
    · exact h
  | workerThrows =>
    simp only [step]
    split
    · exact fun _ => rfl
    · exact h
  | stopPosts caller =>
    simp only [step]
    split
    · exact h
    · split
      · exact h
      · -- `RecycleConnection` goes on only with a dropped connection
        rename_i hguard
        intro hs
        simp only [Option.some.injEq, StopPhase.joining.injEq] at hs
        subst hs
        simpa [HttpConnection.stopPosts] using hguard
  | stopJoined =>
    simp only [step]
    split
    · split
      · exact h
      · simp [stopCancels]
    · exact h
  | stopReturns =>
    simp only [step]
    split
    · simp
    · simp [recycled]
    · exact h
  | executeReadsReady httpContext =>
    simp only [step]
    split <;> exact h
  | onConnect | onError =>
    simp only [step]
    split <;> exact h

/-- What every world reached from `initial` keeps. -/
structure Inv (w : World) : Prop where
  recorded : w.Recorded
  recycle_dropped : w.stopping = some (.joining .recycleConnection) → w.connection.isDropped = true
  sound : ∀ f ∈ w.finished, f.Sound

theorem inv_initial : initial.Inv where
  recorded :=
    { settled := Settled.empty
      pending_lt := fun _ h => absurd h (AList.notMem_empty _)
      finished_lt := fun _ h => absurd h List.not_mem_nil
      mem_accepted := fun k => by simp [initial, AList.notMem_empty] }
  recycle_dropped := fun h => by cases h
  sound := fun _ h => absurd h List.not_mem_nil

theorem Inv.step (h : w.Inv) (e : Event) : (w.step e).Inv where
  recorded := (step_moves w e).recorded h.recorded
  recycle_dropped := step_recycle_dropped w e h.recycle_dropped
  sound := (step_moves w e).sound h.recycle_dropped h.sound

theorem inv_run (events : List Event) : (initial.run events).Inv :=
  Simulation.foldl_invariant step Inv (fun _ => True) (fun _ e _ hw => hw.step e)
    (fun _ _ => trivial) inv_initial

theorem run_append (w : World) (events events' : List Event) :
    w.run (events ++ events') = (w.run events).run events' :=
  List.foldl_append

/-! ### Exactly once, and with which result -/

/-- No context is finished twice, and every finished context is one that
`Execute` accepted. -/
theorem finished_once (events : List Event) :
    ((initial.run events).finished.map (·.requestId)).Nodup ∧
      ∀ f ∈ (initial.run events).finished, f.requestId ∈ (initial.run events).accepted := by
  have h := (inv_run events).recorded
  refine ⟨h.settled.nodup, fun f hf => ?_⟩
  exact (h.mem_accepted _).mpr (.inr (List.mem_map.mpr ⟨f, hf, rfl⟩))

/-- A context finished because the connection dropped, by the cancel after a
connection error or by the `Stop` of `RecycleConnection`, is to be retried. -/
theorem dropped_finish_retry (events : List Event) {f : Finished}
    (hf : f ∈ (initial.run events).finished)
    (hby : f.finishedBy = .cancelPendingCallbacks .onConnectionError ∨
      f.finishedBy = .cancelPendingCallbacks (.stop .recycleConnection)) :
    f.result = retryExecutionResult scHttp2ClientConnectionDropped :=
  ((inv_run events).sound f hf).retry_of_dropped hby

/-- A connection error while a request is out: the cancel retries it. -/
theorem dropped_finish_retry_after_error :
    (⟨0, retryExecutionResult scHttp2ClientConnectionDropped,
        .cancelPendingCallbacks .onConnectionError⟩ : Finished) ∈
      (initial.run [.onConnect, .workerRuns false, .executeReadsReady ⟨.GET, successExecutionResult⟩,
        .executeInserts ⟨.GET, successExecutionResult⟩, .onError, .workerRuns false,
        .workerRuns false]).finished ∧
      retryExecutionResult scHttp2ClientConnectionDropped =
        retryExecutionResult scHttp2ClientConnectionDropped :=
  ⟨by decide, dropped_finish_retry [.onConnect, .workerRuns false,
    .executeReadsReady ⟨.GET, successExecutionResult⟩, .executeInserts ⟨.GET, successExecutionResult⟩,
    .onError, .workerRuns false, .workerRuns false]
    (f := ⟨0, retryExecutionResult scHttp2ClientConnectionDropped,
      .cancelPendingCallbacks .onConnectionError⟩) (by decide) (.inl rfl)⟩

/-- Only `OnRequestResponseClosed` finishes a context with success. -/
theorem success_finish_closed (events : List Event) {f : Finished}
    (hf : f ∈ (initial.run events).finished) (hs : f.result = successExecutionResult) :
    f.finishedBy = .onRequestResponseClosed :=
  ((inv_run events).sound f hf).closed_of_success hs

/-- A request answered with 200 and closed without an error. -/
theorem success_finish_closed_after_ok :
    (⟨0, successExecutionResult, .onRequestResponseClosed⟩ : Finished) ∈
      (initial.run [.onConnect, .workerRuns false, .executeReadsReady ⟨.POST, successExecutionResult⟩,
        .executeInserts ⟨.POST, successExecutionResult⟩, .workerRuns false,
        .onClose 0 200 0]).finished ∧
      FinishedBy.onRequestResponseClosed = .onRequestResponseClosed :=
  ⟨by decide, success_finish_closed [.onConnect, .workerRuns false,
    .executeReadsReady ⟨.POST, successExecutionResult⟩, .executeInserts ⟨.POST, successExecutionResult⟩,
    .workerRuns false, .onClose 0 200 0]
    (f := ⟨0, successExecutionResult, .onRequestResponseClosed⟩) (by decide) rfl⟩

/-- When `Stop`'s join returns, its `CancelPendingCallbacks` has finished
every context that `Execute` accepted so far. -/
theorem stopJoined_finishes_accepted (events : List Event) {caller : StopCaller}
    (hjoin : (initial.run events).stopping = some (.joining caller))
    (hrun : (initial.run events).connection.ioRunning = false) :
    ∀ k ∈ (initial.run (events ++ [.stopJoined])).accepted,
      k ∈ (initial.run (events ++ [.stopJoined])).finished.map (·.requestId) := by
  have hstep : initial.run (events ++ [.stopJoined]) = (initial.run events).stopCancels caller := by
    rw [run_append]
    show (initial.run events).step .stopJoined = _
    simp [step, hjoin, hrun]
  intro k hk
  rcases ((inv_run (events ++ [.stopJoined])).recorded.mem_accepted k).mp hk with hp | hf
  · rw [hstep] at hp
    exact absurd hp (HttpConnection.not_mem_cancelPendingCallbacks _ _ k)
  · exact hf

/-- A request submitted before a `Stop` of the pool: the cancel finishes it. -/
theorem stopJoined_finishes_accepted_submitted :
    let events : List Event := [.onConnect, .workerRuns false,
      .executeReadsReady ⟨.GET, successExecutionResult⟩, .executeInserts ⟨.GET, successExecutionResult⟩,
      .stopPosts .poolStop, .workerRuns false, .workerRuns false, .workerRuns false]
    (initial.run events).stopping = some (.joining .poolStop) ∧
      (initial.run events).connection.ioRunning = false ∧
      ∀ k ∈ (initial.run (events ++ [.stopJoined])).accepted,
        k ∈ (initial.run (events ++ [.stopJoined])).finished.map (·.requestId) := by
  intro events
  exact ⟨by decide, by decide, @stopJoined_finishes_accepted events .poolStop (by decide) (by decide)⟩

/-! ### An `Execute` racing a `Stop` -/

/-- Once the worker is gone and no `Stop` is under way, no event other than a
`Stop` runs anything that finishes a context. -/
theorem step_of_stopped {w : World} (hrun : w.connection.ioRunning = false)
    (hstop : w.stopping = none) (e : Event) (he : ∀ caller, e ≠ .stopPosts caller) :
    (w.step e).connection.ioRunning = false ∧ (w.step e).stopping = none ∧
      (w.step e).finished = w.finished := by
  cases e with
  | executeReadsReady httpContext =>
    simp only [step]
    split <;> exact ⟨hrun, hstop, rfl⟩
  | executeInserts httpContext =>
    simp only [step]
    split
    · rw [executeInserts_ioRunning, executeInserts_stopping, executeInserts_finished]
      exact ⟨hrun, hstop, rfl⟩
    · exact ⟨hrun, hstop, rfl⟩
  | stopPosts caller => exact absurd rfl (he caller)
  | stopJoined | stopReturns => simp [step, hrun, hstop]
  | workerRuns _ | onConnect | onError | onClose _ _ _ | workerThrows =>
    simp [step, hrun, hstop]

/-- Along events none of which starts a `Stop`, a world whose worker is gone
and that no `Stop` is under way in finishes nothing more. -/
theorem finished_run_of_stopped {w : World} (hrun : w.connection.ioRunning = false)
    (hstop : w.stopping = none) (events : List Event)
    (hevents : ∀ e ∈ events, ∀ caller, e ≠ .stopPosts caller) :
    (w.run events).finished = w.finished := by
  have hrest := Simulation.foldl_invariant step
    (fun w' : World => w'.connection.ioRunning = false ∧ w'.stopping = none ∧
      w'.finished = w.finished)
    (fun e => ∀ caller, e ≠ .stopPosts caller)
    (fun w' e he hw' => by
      obtain ⟨h₁, h₂, h₃⟩ := step_of_stopped hw'.1 hw'.2.1 e he
      exact ⟨h₁, h₂, h₃.trans hw'.2.2⟩)
    hevents ⟨hrun, hstop, rfl⟩
  exact hrest.2.2

/-- An `Execute` that reads `is_ready_` on a connected connection, then a
`Stop` of the pool that posts, runs the worker out, joins and cancels, then the
`Execute`'s insert and post, then the `Stop`'s return. -/
def executeRacingStop (httpContext : HttpContext) : List Event :=
  [.onConnect, .workerRuns false, .executeReadsReady httpContext, .stopPosts .poolStop,
    .workerRuns false, .workerRuns false, .stopJoined, .executeInserts httpContext, .stopReturns]

theorem execute_racing_stop_stays_pending :
    ∃ w, w = initial.run (executeRacingStop ⟨.GET, successExecutionResult⟩) ∧
      0 ∈ w.accepted ∧ w.stopping = none ∧
      ∀ events : List Event, (∀ e ∈ events, ∀ caller, e ≠ .stopPosts caller) →
        0 ∉ (w.run events).finished.map (·.requestId) := by
  refine ⟨_, rfl, ?_⟩
  generalize hrace : initial.run (executeRacingStop ⟨.GET, successExecutionResult⟩) = w
  have hw : w.connection.ioRunning = false ∧ w.stopping = none ∧ w.finished = [] ∧
      0 ∈ w.accepted := by
    rw [← hrace]
    decide
  obtain ⟨hrun, hstop, hfinished, haccepted⟩ := hw
  refine ⟨haccepted, hstop, fun events hevents => ?_⟩
  rw [finished_run_of_stopped hrun hstop events hevents, hfinished]
  exact List.not_mem_nil

end World

end ControlPlane.Http
