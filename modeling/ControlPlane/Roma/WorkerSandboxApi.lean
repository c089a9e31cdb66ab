import ControlPlane.Roma.Dispatch

/-!
# `WorkerSandboxApi::RunCode` across the sandbox boundary

The host side of a Roma worker (`WorkerSandboxApi`,
src/cc/roma/sandbox/worker_api/sapi) sends a `WorkerParamsProto` to the
sandboxee (`worker_wrapper.cc`), which runs the code and sends the request
back with the response and metrics set and the code and input cleared. The
two sides share a buffer whose size the host fixes in its constructor and
sends to the sandboxee in `Init`.

By default each side picks a channel on its own: a message smaller than the
buffer goes through the buffer, a larger one through the SAPI `LenVal`, and
a size of zero tells the other side to read the `LenVal`. With
`enable_sandbox_sharing_request_response_with_buffer_only` set everything
goes through the buffer, and a message larger than it fails the call.

`runCode_eq_outcome` says what `RunCode` answers for every outcome of the
sandboxee's `RunCode`: the channels never show in the default mode, and the
buffer-only mode fails exactly on a request or a reply larger than the
buffer. A reply is never empty, since the sandboxee always records how long
the engine ran; an empty one would send the host back to its own `LenVal`.

## Implementation notes

The wire format is a `ProtoCodec`: parsing what was serialized gives the
message back, and parsing nothing gives the default message, as protobuf
does; the codec never fails to serialize. `ByteSizeLong` is the length of the
encoding; sizes are `Nat`, protobuf refusing messages of 2 GiB and more, below
which the source's `int`s hold every size. SAPI copies the `LenVal` both ways
(`PtrBoth`) and `*output_serialized_size` back (`PtrAfter`). Protobuf maps are
`AList`s and the engine's metrics are added in the order of their entries.
The stopwatch reading is `elapsed`. A sandboxee that dies (it does when the
engine answers a success without a value, whose `value()` it then reads) is
`none`; `Init` and `Run` after a crash are the result `restart`, and the
restarted sandboxee is not followed further.
-/

namespace ControlPlane.Roma

open ControlPlane.Core

def scRomaWorkerApiUninitializedWorker : StatusCode := makeErrorCode scRomaWorkerApi 0x0001

def scRomaWorkerApiUninitializedSandbox : StatusCode := makeErrorCode scRomaWorkerApi 0x0009

def scRomaWorkerApiCouldNotDeserializeRunCodeData : StatusCode := makeErrorCode scRomaWorkerApi 0x000E

def scRomaWorkerApiValidSandboxBufferRequired : StatusCode := makeErrorCode scRomaWorkerApi 0x0010

def scRomaWorkerApiRequestDataSizeLargerThanBufferCapacity : StatusCode :=
  makeErrorCode scRomaWorkerApi 0x0011

def scRomaWorkerApiResponseDataSizeLargerThanBufferCapacity : StatusCode :=
  makeErrorCode scRomaWorkerApi 0x0012

def kMB : Nat := 1024 * 1024

def kDefaultBufferSizeInMb : Nat := 1

def kExecutionMetricJsEngineCallNs : List Char := "roma.metric.code_run_ns".toList

/-- `WorkerParamsProto`: the request fields, then the response and metrics. -/
structure WorkerParamsProto where
  code : List Char := []
  input : List (List Char) := []
  metadata : AList (fun _ : List Char => List Char) := ∅
  wasm : Option (List UInt8) := none
  response : Option (List Char) := none
  metrics : AList (fun _ : List Char => Int) := ∅

instance : Inhabited WorkerParamsProto := ⟨{}⟩

/-- The protobuf wire format of a message type: `SerializeToArray` writes
`serialize`, `ParseFromArray` reads with `parse`. -/
structure ProtoCodec (α : Type) [Inhabited α] where
  serialize : α → List UInt8
  parse : List UInt8 → Option α
  parse_serialize : ∀ p, parse (serialize p) = some p
  parse_nil : parse [] = some default

/-- `SerializeToArray` into the shared buffer: the bytes over its front. -/
def serializeToArray (buffer bytes : List UInt8) : List UInt8 :=
  bytes ++ buffer.drop bytes.length

namespace ProtoCodec

variable {α : Type} [Inhabited α] (codec : ProtoCodec α)

/-- Only the default message has an empty encoding. -/
theorem eq_default_of_serialize_eq_nil {p : α} (h : codec.serialize p = []) : p = default := by
  have hparse := codec.parse_serialize p
  rw [h, codec.parse_nil] at hparse
  exact (Option.some.inj hparse).symm

/-- What `SerializeToArray` wrote over the front of the buffer parses back. -/
theorem parse_serializeToArray (buffer : List UInt8) (p : α) :
    codec.parse ((serializeToArray buffer (codec.serialize p)).take (codec.serialize p).length) =
      some p := by
  rw [serializeToArray, List.take_left, codec.parse_serialize]

end ProtoCodec

/-- Both sides drop the code and the input before sending the reply. -/
def clearCodeAndInput (params : WorkerParamsProto) : WorkerParamsProto :=
  { params with code := [], input := [] }

/-- `js_engine::ExecutionResponse`. -/
structure ExecutionResponse where
  response : List Char
  metrics : AList (fun _ : List Char => Int)

/-- `Worker::RunCode`: the engine run on the code, input, metadata and wasm. -/
abbrev Worker :=
  List Char → List (List Char) → AList (fun _ : List Char => List Char) → List UInt8 →
    ExecutionResultOr ExecutionResponse

/-! ## The sandboxee -/

namespace WorkerWrapper

/-- The sandboxee's globals: the worker, whether the shared buffer is
mapped, and the buffer size `Init` received. -/
structure Sandboxee where
  worker : Option Worker
  bufferReady : Bool
  requestAndResponseDataBufferSizeBytes : Nat

/-- `RunCode` of the sandboxee: the engine's run time is recorded whatever
the engine answers; `none` is the sandboxee dying on a success without a
value. -/
def runCode (worker : Option Worker) (elapsed : Int) (params : WorkerParamsProto) :
    Option (StatusCode × WorkerParamsProto) :=
  match worker with
  | none => some (scRomaWorkerApiUninitializedWorker, params)
  | some worker =>
    let responseOr := worker params.code params.input params.metadata (params.wasm.getD [])
    let params :=
      { params with metrics := params.metrics.insert kExecutionMetricJsEngineCallNs elapsed }
    match responseOr with
    | .result r => if r.successful then none else some (r.statusCode, params)
    | .value response =>
      let metrics :=
        response.metrics.entries.foldl (fun m entry => m.insert entry.1 entry.2) params.metrics
      some (scOk, { params with metrics := metrics, response := some response.response })

/-- What a call into the sandboxee leaves: its status code, the shared
buffer, and `*output_serialized_size`. -/
structure WrapperCall where
  status : StatusCode
  buffer : List UInt8
  outputSerializedSize : Nat

variable (codec : ProtoCodec WorkerParamsProto)

/-- The request as `RunCodeFromSerializedData` reads it: from the buffer
when the host gave a size, from the `LenVal` when it gave 0. -/
def readRequest (buffer data : List UInt8) (inputSerializedSize : Nat) : Option WorkerParamsProto :=
  if 0 < inputSerializedSize then codec.parse (buffer.take inputSerializedSize) else codec.parse data

/-- The end of `RunCodeFromSerializedData`, after `RunCode`: a failure goes
back as it is; a reply smaller than the buffer goes in the buffer with its
size, a larger one replaces the `LenVal` data and the size says 0. -/
def replyFromSerializedData (capacity : Nat) (buffer data : List UInt8) :
    StatusCode × WorkerParamsProto → WrapperCall × List UInt8
  | (result, params) =>
    if result ≠ scOk then (⟨result, buffer, 0⟩, data)
    else
      let serialized := codec.serialize (clearCodeAndInput params)
      if serialized.length < capacity then
        (⟨result, serializeToArray buffer serialized, serialized.length⟩, data)
      else (⟨result, buffer, 0⟩, serialized)

/-- `RunCodeFromSerializedData`, with the `LenVal` data it leaves. -/
def runCodeFromSerializedData (sandboxee : Sandboxee) (elapsed : Int) (buffer data : List UInt8)
    (inputSerializedSize : Nat) : Option (WrapperCall × List UInt8) :=
  if !sandboxee.bufferReady then some (⟨scRomaWorkerApiValidSandboxBufferRequired, buffer, 0⟩, data)
  else
    match readRequest codec buffer data inputSerializedSize with
    | none => some (⟨scRomaWorkerApiCouldNotDeserializeRunCodeData, buffer, 0⟩, data)
    | some params =>
      (runCode sandboxee.worker elapsed params).map
        (replyFromSerializedData codec sandboxee.requestAndResponseDataBufferSizeBytes buffer data)

/-- The end of `RunCodeFromBuffer`, after `RunCode`: a reply larger than the
buffer fails the call. -/
def replyFromBuffer (capacity : Nat) (buffer : List UInt8) : StatusCode × WorkerParamsProto → WrapperCall
  | (result, params) =>
    if result ≠ scOk then ⟨result, buffer, 0⟩
    else
      let serialized := codec.serialize (clearCodeAndInput params)
      if capacity < serialized.length then
        ⟨scRomaWorkerApiResponseDataSizeLargerThanBufferCapacity, buffer, 0⟩
      else ⟨result, serializeToArray buffer serialized, serialized.length⟩

/-- `RunCodeFromBuffer`: request and reply both in the buffer. -/
def runCodeFromBuffer (sandboxee : Sandboxee) (elapsed : Int) (buffer : List UInt8)
    (inputSerializedSize : Nat) : Option WrapperCall :=
  if !sandboxee.bufferReady then some ⟨scRomaWorkerApiValidSandboxBufferRequired, buffer, 0⟩
  else
    match codec.parse (buffer.take inputSerializedSize) with
    | none => some ⟨scRomaWorkerApiCouldNotDeserializeRunCodeData, buffer, 0⟩
    | some params =>
      (runCode sandboxee.worker elapsed params).map
        (replyFromBuffer codec sandboxee.requestAndResponseDataBufferSizeBytes buffer)

/-! ### The reply is never empty -/

theorem mem_foldl_insert {key : List Char} (entries : List (Sigma fun _ : List Char => Int))
    {metrics : AList (fun _ : List Char => Int)} (h : key ∈ metrics) :
    key ∈ entries.foldl (fun m entry => m.insert entry.1 entry.2) metrics := by
  induction entries generalizing metrics with
  | nil => exact h
  | cons entry rest ih =>
    rw [List.foldl_cons]
    exact ih ((AList.mem_insert _).mpr (Or.inr h))

/-- Every answer of the sandboxee's `RunCode` that is not a missing worker
records the engine's run time. -/
theorem runCode_records_elapsed {worker : Option Worker} {elapsed : Int}
    {params reply : WorkerParamsProto} (h : runCode worker elapsed params = some (scOk, reply)) :
    kExecutionMetricJsEngineCallNs ∈ reply.metrics := by
  cases worker with
  | none => cases h
  | some worker =>
    have hrecorded : kExecutionMetricJsEngineCallNs ∈
        params.metrics.insert kExecutionMetricJsEngineCallNs elapsed :=
      (AList.mem_insert _).mpr (Or.inl rfl)
    simp only [runCode] at h
    split at h
    · split at h
      · cases h
      · obtain ⟨-, rfl⟩ := Prod.mk.inj (Option.some.inj h)
        exact hrecorded
    · obtain ⟨-, rfl⟩ := Prod.mk.inj (Option.some.inj h)
      exact mem_foldl_insert _ hrecorded

/-- So the reply the sandboxee encodes is never empty: a size of 0 always
means the `LenVal`. -/
theorem reply_length_pos (codec : ProtoCodec WorkerParamsProto) {worker : Option Worker}
    {elapsed : Int} {params reply : WorkerParamsProto}
    (h : runCode worker elapsed params = some (scOk, reply)) :
    0 < (codec.serialize (clearCodeAndInput reply)).length := by
  apply List.length_pos_of_ne_nil
  intro hnil
  have hmem : kExecutionMetricJsEngineCallNs ∈ reply.metrics := runCode_records_elapsed h
  change kExecutionMetricJsEngineCallNs ∈ (clearCodeAndInput reply).metrics at hmem
  rw [codec.eq_default_of_serialize_eq_nil hnil] at hmem
  exact AList.notMem_empty _ hmem

end WorkerWrapper

/-! ## The host -/

open WorkerWrapper

/-- The fields of `WorkerSandboxApi` that `RunCode` reads; `sandboxStarted`
is `worker_sapi_sandbox_` and `worker_wrapper_api_` both being set. -/
structure WorkerSandboxApi where
  requestAndResponseDataBufferSizeBytes : Nat
  enableSandboxSharingRequestResponseWithBufferOnly : Bool
  sandboxStarted : Bool

namespace WorkerSandboxApi

/-- The constructor: a buffer of the size asked for in MiB, or of the
default size when none is asked for. -/
def new (sandboxRequestResponseSharedBufferSizeMb : Nat)
    (enableSandboxSharingRequestResponseWithBufferOnly : Bool) : WorkerSandboxApi where
  requestAndResponseDataBufferSizeBytes :=
    if 0 < sandboxRequestResponseSharedBufferSizeMb then sandboxRequestResponseSharedBufferSizeMb * kMB
    else kDefaultBufferSizeInMb * kMB
  enableSandboxSharingRequestResponseWithBufferOnly := enableSandboxSharingRequestResponseWithBufferOnly
  sandboxStarted := false

/-- `Init` and `Run` when they succeed: the host holds the sandbox, and the
sandboxee the worker, the buffer mapped from its fd and the size the host
sent in `WorkerInitParamsProto`. -/
def init (api : WorkerSandboxApi) (worker : Worker) : WorkerSandboxApi × Sandboxee :=
  ({ api with sandboxStarted := true }, ⟨some worker, true, api.requestAndResponseDataBufferSizeBytes⟩)

/-- What `RunCode` leaves: its result, the request object, and the shared
buffer. -/
structure RunCodeCall where
  result : ExecutionResult
  params : WorkerParamsProto
  buffer : List UInt8

variable (codec : ProtoCodec WorkerParamsProto)

/-- The reply as the host reads it: from the buffer when the sandboxee gave
a size, from the `LenVal` when it gave 0. -/
def readReply (call : WrapperCall) (data : List UInt8) : Option WorkerParamsProto :=
  if 0 < call.outputSerializedSize then codec.parse (call.buffer.take call.outputSerializedSize)
  else codec.parse data

/-- How `InternalRunCode` hands over the request: the buffer, the `LenVal`
data and the size it passes. A request smaller than the buffer goes in the
buffer with its size, a larger one in the `LenVal` with size 0. -/
def shareRequest (capacity : Nat) (buffer serialized : List UInt8) : List UInt8 × List UInt8 × Nat :=
  if serialized.length < capacity then (serializeToArray buffer serialized, [], serialized.length)
  else (buffer, serialized, 0)

def internalRunCode (api : WorkerSandboxApi) (sandboxee : Sandboxee) (elapsed : Int)
    (buffer : List UInt8) (params : WorkerParamsProto) : RunCodeCall :=
  let (buffer, data, inputSerializedSize) :=
    shareRequest api.requestAndResponseDataBufferSizeBytes buffer (codec.serialize params)
  match runCodeFromSerializedData codec sandboxee elapsed buffer data inputSerializedSize with
  | none => ⟨retryExecutionResult scRomaWorkerApiWorkerCrashed, params, buffer⟩
  | some (call, data) =>
    if call.status ≠ scOk then ⟨failureExecutionResult call.status, params, call.buffer⟩
    else
      match readReply codec call data with
      | none => ⟨failureExecutionResult scRomaWorkerApiCouldNotDeserializeRunCodeData, params, call.buffer⟩
      | some outParams => ⟨successExecutionResult, outParams, call.buffer⟩

def internalRunCodeBufferShareOnly (api : WorkerSandboxApi) (sandboxee : Sandboxee) (elapsed : Int)
    (buffer : List UInt8) (params : WorkerParamsProto) : RunCodeCall :=
  let serialized := codec.serialize params
  if api.requestAndResponseDataBufferSizeBytes < serialized.length then
    ⟨failureExecutionResult scRomaWorkerApiRequestDataSizeLargerThanBufferCapacity, params, buffer⟩
  else
    let buffer := serializeToArray buffer serialized
    match runCodeFromBuffer codec sandboxee elapsed buffer serialized.length with
    | none => ⟨retryExecutionResult scRomaWorkerApiWorkerCrashed, params, buffer⟩
    | some call =>
      if call.status ≠ scOk then ⟨failureExecutionResult call.status, params, call.buffer⟩
      else
        match codec.parse (call.buffer.take call.outputSerializedSize) with
        | none =>
          ⟨failureExecutionResult scRomaWorkerApiCouldNotDeserializeRunCodeData, params, call.buffer⟩
        | some outParams => ⟨successExecutionResult, outParams, call.buffer⟩

/-- `RunCode`; a crash restarts the sandbox, whose failure is returned
instead when `Init` or `Run` fails. -/
def runCode (api : WorkerSandboxApi) (sandboxee : Sandboxee) (elapsed : Int) (restart : ExecutionResult)
    (buffer : List UInt8) (params : WorkerParamsProto) : RunCodeCall :=
  if !api.sandboxStarted then
    ⟨failureExecutionResult scRomaWorkerApiUninitializedSandbox, params, buffer⟩
  else
    let call :=
      if api.enableSandboxSharingRequestResponseWithBufferOnly then
        internalRunCodeBufferShareOnly codec api sandboxee elapsed buffer params
      else internalRunCode codec api sandboxee elapsed buffer params
    if call.result.successful then { call with result := successExecutionResult }
    else if call.result.status = .retry ∧ !restart.successful then { call with result := restart }
    else call

/-! ### The two channels -/

/-- The sandboxee reads the request the host handed over, through either
channel; an empty request goes through the buffer with size 0 and is read
from the empty `LenVal`, which parses to the same default message. -/
theorem readRequest_shareRequest (capacity : Nat) (buffer : List UInt8) (params : WorkerParamsProto) :
    readRequest codec (shareRequest capacity buffer (codec.serialize params)).1
      (shareRequest capacity buffer (codec.serialize params)).2.1
      (shareRequest capacity buffer (codec.serialize params)).2.2 = some params := by
  by_cases hsmall : (codec.serialize params).length < capacity
  · simp only [shareRequest, if_pos hsmall, readRequest]
    by_cases hpos : 0 < (codec.serialize params).length
    · rw [if_pos hpos, codec.parse_serializeToArray]
    · have hnil : codec.serialize params = [] := List.eq_nil_of_length_eq_zero (by omega)
      rw [if_neg hpos, codec.parse_nil, codec.eq_default_of_serialize_eq_nil hnil]
  · simp only [shareRequest, if_neg hsmall, readRequest, Nat.lt_irrefl, if_false, codec.parse_serialize]

/-- A reply that is not empty reaches the host through either channel. -/
theorem readReply_replyFromSerializedData (capacity : Nat) (buffer data : List UInt8)
    {reply : WorkerParamsProto} (hpos : 0 < (codec.serialize (clearCodeAndInput reply)).length) :
    (replyFromSerializedData codec capacity buffer data (scOk, reply)).1.status = scOk ∧
      readReply codec (replyFromSerializedData codec capacity buffer data (scOk, reply)).1
        (replyFromSerializedData codec capacity buffer data (scOk, reply)).2 =
        some (clearCodeAndInput reply) := by
  by_cases hsmall : (codec.serialize (clearCodeAndInput reply)).length < capacity
  · simp only [replyFromSerializedData, ne_eq, not_true_eq_false, if_false, if_pos hsmall, readReply,
      if_pos hpos, codec.parse_serializeToArray, and_self]
  · simp only [replyFromSerializedData, ne_eq, not_true_eq_false, if_false, if_neg hsmall, readReply,
      Nat.lt_irrefl, codec.parse_serialize, and_self]

/-- `InternalRunCode`: the sandboxee's `RunCode` decides the answer,
whichever channels the two sides pick. -/
theorem internalRunCode_outcome (api : WorkerSandboxApi) {sandboxee : Sandboxee}
    (hready : sandboxee.bufferReady = true) (elapsed : Int) (buffer : List UInt8)
    (params : WorkerParamsProto) :
    ((internalRunCode codec api sandboxee elapsed buffer params).result,
        (internalRunCode codec api sandboxee elapsed buffer params).params) =
      match WorkerWrapper.runCode sandboxee.worker elapsed params with
      | none => (retryExecutionResult scRomaWorkerApiWorkerCrashed, params)
      | some (code, reply) =>
        if code ≠ scOk then (failureExecutionResult code, params)
        else (successExecutionResult, clearCodeAndInput reply) := by
  have hrequest := readRequest_shareRequest codec api.requestAndResponseDataBufferSizeBytes buffer params
  rcases hshare : shareRequest api.requestAndResponseDataBufferSizeBytes buffer (codec.serialize params)
    with ⟨buffer', data, inputSerializedSize⟩
  rw [hshare] at hrequest
  dsimp only at hrequest
  simp only [internalRunCode, hshare, runCodeFromSerializedData, hready, Bool.not_true, hrequest,
    Bool.false_eq_true, if_false]
  rcases hrun : WorkerWrapper.runCode sandboxee.worker elapsed params with _ | ⟨code, reply⟩
  · rfl
  · by_cases hcode : code = scOk
    · subst hcode
      obtain ⟨hstatus, hreply⟩ := readReply_replyFromSerializedData codec
        sandboxee.requestAndResponseDataBufferSizeBytes buffer' data (WorkerWrapper.reply_length_pos codec hrun)
      rcases hcall : replyFromSerializedData codec sandboxee.requestAndResponseDataBufferSizeBytes buffer' data
        (scOk, reply) with ⟨call, data'⟩
      rw [hcall] at hstatus hreply
      dsimp only at hstatus hreply
      simp only [Option.map_some, hcall, hstatus, hreply, ne_eq, not_true_eq_false, if_false]
    · simp only [Option.map_some, replyFromSerializedData, ne_eq, hcode, not_false_eq_true, if_true]

/-- `InternalRunCodeBufferShareOnly`: a request larger than the buffer fails
before the sandboxee sees it, and a reply larger than the sandboxee's buffer
size fails in the sandboxee. -/
theorem internalRunCodeBufferShareOnly_outcome (api : WorkerSandboxApi) {sandboxee : Sandboxee}
    (hready : sandboxee.bufferReady = true) (elapsed : Int) (buffer : List UInt8)
    (params : WorkerParamsProto) :
    ((internalRunCodeBufferShareOnly codec api sandboxee elapsed buffer params).result,
        (internalRunCodeBufferShareOnly codec api sandboxee elapsed buffer params).params) =
      if api.requestAndResponseDataBufferSizeBytes < (codec.serialize params).length then
        (failureExecutionResult scRomaWorkerApiRequestDataSizeLargerThanBufferCapacity, params)
      else
        match WorkerWrapper.runCode sandboxee.worker elapsed params with
        | none => (retryExecutionResult scRomaWorkerApiWorkerCrashed, params)
        | some (code, reply) =>
          if code ≠ scOk then (failureExecutionResult code, params)
          else if sandboxee.requestAndResponseDataBufferSizeBytes <
              (codec.serialize (clearCodeAndInput reply)).length then
            (failureExecutionResult scRomaWorkerApiResponseDataSizeLargerThanBufferCapacity, params)
          else (successExecutionResult, clearCodeAndInput reply) := by
  by_cases hlarge : api.requestAndResponseDataBufferSizeBytes < (codec.serialize params).length
  · simp only [internalRunCodeBufferShareOnly, if_pos hlarge]
  · simp only [internalRunCodeBufferShareOnly, if_neg hlarge, runCodeFromBuffer, hready, Bool.not_true,
      Bool.false_eq_true, if_false, codec.parse_serializeToArray]
    rcases hrun : WorkerWrapper.runCode sandboxee.worker elapsed params with _ | ⟨code, reply⟩
    · rfl
    · by_cases hcode : code = scOk
      · subst hcode
        by_cases hreply : sandboxee.requestAndResponseDataBufferSizeBytes <
            (codec.serialize (clearCodeAndInput reply)).length
        · simp only [Option.map_some, replyFromBuffer, ne_eq, not_true_eq_false, if_false, if_pos hreply]
          rfl
        · simp only [Option.map_some, replyFromBuffer, ne_eq, not_true_eq_false, if_false, if_neg hreply,
            codec.parse_serializeToArray]
      · simp only [Option.map_some, replyFromBuffer, ne_eq, hcode, not_false_eq_true, if_true]

/-! ## What `RunCode` answers -/

/-- What `RunCode` answers, given what the sandboxee's `RunCode` makes of the
request (`none` when the sandboxee dies): in buffer-only mode a request or a
reply larger than the buffer fails; otherwise a crash is retried, a failure
is returned, and a success leaves the reply. -/
def runCodeOutcome (capacity : Nat) (bufferOnly : Bool) (restart : ExecutionResult)
    (request : WorkerParamsProto) (sandboxed : Option (StatusCode × WorkerParamsProto)) :
    ExecutionResult × WorkerParamsProto :=
  if bufferOnly ∧ capacity < (codec.serialize request).length then
    (failureExecutionResult scRomaWorkerApiRequestDataSizeLargerThanBufferCapacity, request)
  else
    match sandboxed with
    | none => (if restart.successful then retryExecutionResult scRomaWorkerApiWorkerCrashed else restart, request)
    | some (code, reply) =>
      if code ≠ scOk then (failureExecutionResult code, request)
      else if bufferOnly ∧ capacity < (codec.serialize (clearCodeAndInput reply)).length then
        (failureExecutionResult scRomaWorkerApiResponseDataSizeLargerThanBufferCapacity, request)
      else (successExecutionResult, clearCodeAndInput reply)

/-- `RunCode` of a started sandbox whose sandboxee has the shared buffer and
the host's buffer size: what the sandboxee's `RunCode` makes of the request
decides the answer. -/
theorem runCode_outcome {api : WorkerSandboxApi} {sandboxee : Sandboxee}
    (hstarted : api.sandboxStarted = true) (hready : sandboxee.bufferReady = true)
    (hsize : sandboxee.requestAndResponseDataBufferSizeBytes = api.requestAndResponseDataBufferSizeBytes)
    (elapsed : Int) (restart : ExecutionResult) (buffer : List UInt8) (request : WorkerParamsProto) :
    ((runCode codec api sandboxee elapsed restart buffer request).result,
        (runCode codec api sandboxee elapsed restart buffer request).params) =
      runCodeOutcome codec api.requestAndResponseDataBufferSizeBytes
        api.enableSandboxSharingRequestResponseWithBufferOnly restart request
        (WorkerWrapper.runCode sandboxee.worker elapsed request) := by
  cases hmode : api.enableSandboxSharingRequestResponseWithBufferOnly
  · obtain ⟨hresult, hparams⟩ := Prod.mk.inj (internalRunCode_outcome codec api hready elapsed buffer request)
    simp only [runCode, hstarted, hmode, Bool.not_true, Bool.false_eq_true, if_false]
    generalize internalRunCode codec api sandboxee elapsed buffer request = call at hresult hparams ⊢
    rcases hrun : WorkerWrapper.runCode sandboxee.worker elapsed request with _ | ⟨code, reply⟩ <;>
      simp only [hrun] at hresult hparams
    · by_cases hrestart : restart.successful <;>
        simp [hresult, hparams, runCodeOutcome, hrestart, retryExecutionResult, successExecutionResult]
    · by_cases hcode : code = scOk <;>
        simp [hresult, hparams, runCodeOutcome, hcode, failureExecutionResult, successExecutionResult]
  · have houtcome := internalRunCodeBufferShareOnly_outcome codec api hready elapsed buffer request
    have hresult := congrArg Prod.fst houtcome
    have hparams := congrArg Prod.snd houtcome
    simp only [runCode, hstarted, hmode, Bool.not_true, Bool.false_eq_true, if_false, if_true]
    generalize internalRunCodeBufferShareOnly codec api sandboxee elapsed buffer request = call
      at hresult hparams ⊢
    simp only [hsize] at hresult hparams
    by_cases hlarge : api.requestAndResponseDataBufferSizeBytes < (codec.serialize request).length
    · simp only [if_pos hlarge] at hresult hparams
      simp [hresult, hparams, runCodeOutcome, hlarge, failureExecutionResult, successExecutionResult]
    · simp only [if_neg hlarge] at hresult hparams
      rcases hrun : WorkerWrapper.runCode sandboxee.worker elapsed request with _ | ⟨code, reply⟩ <;>
        simp only [hrun] at hresult hparams
      · by_cases hrestart : restart.successful <;>
          simp [hresult, hparams, runCodeOutcome, hlarge, hrestart, retryExecutionResult,
            successExecutionResult]
      · by_cases hcode : code = scOk
        · by_cases hreply : api.requestAndResponseDataBufferSizeBytes <
              (codec.serialize (clearCodeAndInput reply)).length <;>
            simp [hresult, hparams, runCodeOutcome, hlarge, hcode, hreply, failureExecutionResult,
              successExecutionResult]
        · simp [hresult, hparams, runCodeOutcome, hlarge, hcode, failureExecutionResult,
            successExecutionResult]

end WorkerSandboxApi

end ControlPlane.Roma
