import ControlPlane.Core.Common
import ControlPlane.Lib.Chunk
import ControlPlane.Lib.Loop

/-!
# GetBlobStream of the AWS and GCP blob storage providers

Both providers answer a `GetBlobStreamRequest` with a stream of portions of
the blob, each of at most `max_bytes_per_response` bytes (64 KiB when it is
0), over the requested byte range or over the whole blob
(src/cc/cpio/client_providers/blob_storage_client_provider/src).

`AwsBlobStorageClientProvider` issues one ranged S3 `GetObject` per portion
and tracks the inclusive range it asked for; S3 cuts a range at the object's
end and reports the object's size in Content-Range. The callback stops when
the portion reaches the object's end or the request's `end_byte_index`,
which it reads whether the request has a range or not.

`GcpBlobStorageClientProvider` opens one read stream over the range, counts
the bytes left in it, and hands out the next portion on each
`GetBlobStreamInternal`.

## Implementation notes

The object store is the object's bytes: S3 and Cloud Storage serve a ranged
read from them, and refuse a range that starts beyond the object. The
streaming context is the list of portions pushed and the result it is
finished with; the executors run what is scheduled, the context is not
cancelled and accepts every push. Indices are `Nat`: the trackers' `int64_t`
and `uint64_t` fields hold the same values while they stay below `2 ^ 63`.
GCP's `begin_byte_index - 1`, which wraps to `2 ^ 64 - 1` for 0, is the `Int`
`b - 1`; its one reader adds 1 back.
-/

namespace ControlPlane.Blob

open ControlPlane.Core ControlPlane.Chunk

/-! ## Error codes -/

def scBlobStorageProvider : Nat := 0x0207

def scBlobStorageProviderInvalidArgs : StatusCode := makeErrorCode scBlobStorageProvider 0x0005

def scAws : Nat := 0x0212

def scAwsInternalServiceError : StatusCode := makeErrorCode scAws 0x0009

def scGcp : Nat := 0x0230

def scGcpOutOfRange : StatusCode := makeErrorCode scGcp 0x0008

/-! ## Requests and responses -/

structure BlobMetadata where
  bucketName : String
  blobName : String
  deriving DecidableEq, Repr

/-- `ByteRange`: both indices inclusive. -/
structure ByteRange where
  beginByteIndex : Nat
  endByteIndex : Nat
  deriving DecidableEq, Repr

structure GetBlobStreamRequest where
  blobMetadata : BlobMetadata
  byteRange : Option ByteRange
  maxBytesPerResponse : Nat
  deriving DecidableEq, Repr

structure GetBlobStreamResponse where
  metadata : BlobMetadata
  data : List UInt8
  byteRange : ByteRange
  deriving DecidableEq, Repr

/-- The portions a stream pushed and the result its context finished with. -/
abbrev StreamOutcome := List GetBlobStreamResponse × ExecutionResult

/-- `byte_range()`: an unset message field reads as its default, `[0, 0]`. -/
def GetBlobStreamRequest.byteRangeOrDefault (request : GetBlobStreamRequest) : ByteRange :=
  request.byteRange.getD ⟨0, 0⟩

/-- The indices a response says it carries. -/
def GetBlobStreamResponse.indices (response : GetBlobStreamResponse) : Nat × Nat :=
  (response.byteRange.beginByteIndex, response.byteRange.endByteIndex)

def k64KbCount : Nat := 64 <<< 10

/-- The portion size of both providers: `max_bytes_per_response`, or 64 KiB
for 0. -/
def readSize (request : GetBlobStreamRequest) : Nat :=
  if request.maxBytesPerResponse = 0 then k64KbCount else request.maxBytesPerResponse

/-- `ValidateGetBlobRequest` of the AWS provider; the GCP provider's
`GetBlobStream` makes the same two checks inline. -/
def validateGetBlobRequest (request : GetBlobStreamRequest) : ExecutionResult :=
  if request.blobMetadata.bucketName.isEmpty || request.blobMetadata.blobName.isEmpty then
    failureExecutionResult scBlobStorageProviderInvalidArgs
  else if request.byteRange.any fun br => br.endByteIndex < br.beginByteIndex then
    failureExecutionResult scBlobStorageProviderInvalidArgs
  else successExecutionResult

/-! ## AWS: one ranged `GetObject` per portion -/

/-- What S3 `GetObject` returns: the body, `ContentLength`, and the total
size behind the `/` of `ContentRange`, which the callback reads with
`StrSplit` and `strtol`. -/
structure GetObjectResult where
  body : List UInt8
  contentLength : Nat
  contentRangeTotal : Nat

/-- S3 `GetObject` of `bytes=first-last` on the object `data`: the range cut
at the object's end. A range that starts beyond the object is refused
(`InvalidRange`). -/
def getObject (data : List UInt8) (first last : Nat) : Option GetObjectResult :=
  if first < data.length then
    some ⟨slice data first last, (slice data first last).length, data.length⟩
  else none

/-- `GetBlobStreamTracker` of the AWS provider: the range of the `GetObject`
in flight. Its `bytes_remaining` is never read. -/
structure AwsTracker where
  lastBeginByteIndex : Nat
  lastEndByteIndex : Nat
  maxBytesPerResponse : Nat

/-- The tracker `GetBlobStream` sets up for the first `GetObject`. -/
def awsStartTracker (request : GetBlobStreamRequest) : AwsTracker :=
  let readSize := readSize request
  match request.byteRange with
  | some br =>
      ⟨br.beginByteIndex, min br.endByteIndex (br.beginByteIndex + readSize - 1), readSize⟩
  | none => ⟨0, readSize - 1, readSize⟩

/-- The end of the portion S3 returned: the range's end, moved back when
`ContentLength` is shorter than the range. -/
def truncatedEnd (tracker : AwsTracker) (actualLengthRead : Nat) : Nat :=
  if actualLengthRead < 1 + tracker.lastEndByteIndex - tracker.lastBeginByteIndex then
    tracker.lastBeginByteIndex + actualLengthRead - 1
  else tracker.lastEndByteIndex

/-- `is_all_object_downloaded || is_end_index_reached`. The second reads
`byte_range().end_byte_index()` also when the request has no range. -/
def isStreamDone (request : GetBlobStreamRequest) (lastEnd totalLength : Nat) : Bool :=
  decide (totalLength - 1 ≤ lastEnd) || lastEnd == request.byteRangeOrDefault.endByteIndex

/-- The end of the next range: one portion on, cut at the request's end when
it has a range. -/
def nextEndIndex (request : GetBlobStreamRequest) (tracker : AwsTracker) (lastEnd : Nat) : Nat :=
  let newEndIndex := (lastEnd + 1) + (tracker.maxBytesPerResponse - 1)
  if request.byteRange.isSome && request.byteRangeOrDefault.endByteIndex < newEndIndex then
    request.byteRangeOrDefault.endByteIndex
  else newEndIndex

structure AwsStream where
  tracker : AwsTracker
  pushed : List GetBlobStreamResponse

/-- `OnGetObjectStreamCallback`: push the portion S3 returned, then finish
or ask for the next range. -/
def onGetObjectStreamCallback (data : List UInt8) (request : GetBlobStreamRequest)
    (s : AwsStream) : AwsStream ⊕ StreamOutcome :=
  match getObject data s.tracker.lastBeginByteIndex s.tracker.lastEndByteIndex with
  | none => .inr (s.pushed, failureExecutionResult scAwsInternalServiceError)
  | some result =>
      let lastEnd := truncatedEnd s.tracker result.contentLength
      let response : GetBlobStreamResponse :=
        ⟨request.blobMetadata, result.body.take result.contentLength,
          ⟨s.tracker.lastBeginByteIndex, lastEnd⟩⟩
      if isStreamDone request lastEnd result.contentRangeTotal then
        .inr (s.pushed ++ [response], successExecutionResult)
      else
        .inl ⟨⟨lastEnd + 1, nextEndIndex request s.tracker lastEnd,
          s.tracker.maxBytesPerResponse⟩, s.pushed ++ [response]⟩

/-- `AwsBlobStorageClientProvider::GetBlobStream`, run for at most `fuel`
callbacks. -/
def awsGetBlobStream (data : List UInt8) (request : GetBlobStreamRequest) (fuel : Nat) :
    Option StreamOutcome :=
  let result := validateGetBlobRequest request
  if result.successful then
    Loop.run (onGetObjectStreamCallback data request) fuel ⟨awsStartTracker request, []⟩
  else some ([], result)

/-! ## GCP: one read stream, handed out portion by portion -/

/-- `GetBlobStreamTracker` of the GCP provider: the unread bytes of the read
stream, the last index handed out, and the bytes still to hand out. -/
structure GcpTracker where
  stream : List UInt8
  lastEndByteIndex : Int
  bytesRemaining : Nat

/-- Cloud Storage `ReadObject` with `ReadRange(b, e + 1)`, or of the whole
object: the bytes it streams. A range that starts beyond the object fails
with `OUT_OF_RANGE`. -/
def readObject (data : List UInt8) (request : GetBlobStreamRequest) : Option (List UInt8) :=
  match request.byteRange with
  | some br => if br.beginByteIndex < data.length then some (slice data br.beginByteIndex br.endByteIndex) else none
  | none => some data

/-- `InitGetBlobStreamTracker`. `blob_stream.size()` is the size of the whole
object; with a range the count is cut to the range. -/
def initGetBlobStreamTracker (data : List UInt8) (request : GetBlobStreamRequest) :
    Except ExecutionResult GcpTracker :=
  match readObject data request with
  | none => .error (failureExecutionResult scGcpOutOfRange)
  | some stream =>
      let contentLength :=
        match request.byteRange with
        | some br =>
            let maxEndIndex := data.length - 1
            let endIndex := if br.endByteIndex > maxEndIndex then maxEndIndex else br.endByteIndex
            1 + endIndex - br.beginByteIndex
        | none => data.length
      .ok ⟨stream, (request.byteRangeOrDefault.beginByteIndex : Int) - 1, contentLength⟩

/-- `ReadNextPortion`: the next `min(read size, bytes_remaining)` bytes, one
past the last index handed out. -/
def readNextPortion (request : GetBlobStreamRequest) (tracker : GcpTracker) :
    GetBlobStreamResponse × GcpTracker :=
  let nextReadSize := min (readSize request) tracker.bytesRemaining
  let beginIndex := (tracker.lastEndByteIndex + 1).toNat
  let endIndex := beginIndex + nextReadSize - 1
  (⟨request.blobMetadata, tracker.stream.take nextReadSize, ⟨beginIndex, endIndex⟩⟩,
    ⟨tracker.stream.drop nextReadSize, endIndex, tracker.bytesRemaining - nextReadSize⟩)

structure GcpStream where
  tracker : GcpTracker
  pushed : List GetBlobStreamResponse

/-- `GetBlobStreamInternal` with a tracker: push the next portion, then
finish when no bytes remain. -/
def getBlobStreamInternal (request : GetBlobStreamRequest) (s : GcpStream) :
    GcpStream ⊕ StreamOutcome :=
  let next := readNextPortion request s.tracker
  if next.2.bytesRemaining = 0 then .inr (s.pushed ++ [next.1], successExecutionResult)
  else .inl ⟨next.2, s.pushed ++ [next.1]⟩

/-- `GcpBlobStorageClientProvider::GetBlobStream`, run for at most `fuel`
rounds of `GetBlobStreamInternal`. -/
def gcpGetBlobStream (data : List UInt8) (request : GetBlobStreamRequest) (fuel : Nat) :
    Option StreamOutcome :=
  let result := validateGetBlobRequest request
  if result.successful then
    match initGetBlobStreamTracker data request with
    | .error r => some ([], r)
    | .ok tracker => Loop.run (getBlobStreamInternal request) fuel ⟨tracker, []⟩
  else some ([], result)

/-! ## What a stream is to push -/

/-- The first index a stream of `request` hands out. -/
def firstIndex (request : GetBlobStreamRequest) : Nat := request.byteRangeOrDefault.beginByteIndex

/-- The last index a stream of `request` hands out: the range's end cut at
the object's last byte, or the object's last byte. -/
def lastIndex (data : List UInt8) (request : GetBlobStreamRequest) : Nat :=
  match request.byteRange with
  | some br => min br.endByteIndex (data.length - 1)
  | none => data.length - 1

/-- The portion of `[lo, hi]`: its bytes of the object under the request's
metadata. -/
def portion (data : List UInt8) (request : GetBlobStreamRequest) (lo hi : Nat) :
    GetBlobStreamResponse :=
  ⟨request.blobMetadata, slice data lo hi, ⟨lo, hi⟩⟩

/-- A request both providers accept, starting inside the object. -/
structure Readable (data : List UInt8) (request : GetBlobStreamRequest) : Prop where
  valid : validateGetBlobRequest request = successExecutionResult
  first_lt : firstIndex request < data.length

/-- A response carries the bytes its range names, under the request's
metadata. -/
structure Carries (data : List UInt8) (request : GetBlobStreamRequest)
    (response : GetBlobStreamResponse) : Prop where
  data_eq : response.data =
    slice data response.byteRange.beginByteIndex response.byteRange.endByteIndex
  metadata_eq : response.metadata = request.blobMetadata

/-- What a stream of `request` over `data` pushes: portions whose ranges cut
`[firstIndex, lastIndex]` into pieces of the read size, in order, each
carrying its bytes. -/
structure Streams (data : List UInt8) (request : GetBlobStreamRequest)
    (responses : List GetBlobStreamResponse) : Prop where
  chunked : Chunked (readSize request) (firstIndex request) (lastIndex data request)
    (responses.map GetBlobStreamResponse.indices)
  carries : ∀ r ∈ responses, Carries data request r

/-- The portions pushed before the one at `cur`: full pieces from the first
index on, each carrying its bytes. -/
structure Pushed (data : List UInt8) (request : GetBlobStreamRequest) (cur : Nat)
    (pushed : List GetBlobStreamResponse) : Prop where
  chunks : Extends (readSize request) (firstIndex request) (lastIndex data request) cur
    (pushed.map GetBlobStreamResponse.indices)
  carries : ∀ r ∈ pushed, Carries data request r

section Spec

variable {data : List UInt8} {request : GetBlobStreamRequest}

theorem readSize_pos (request : GetBlobStreamRequest) : 0 < readSize request := by
  unfold readSize
  split
  · decide
  · omega

theorem carries_portion (data : List UInt8) (request : GetBlobStreamRequest) (lo hi : Nat) :
    Carries data request (portion data request lo hi) :=
  ⟨rfl, rfl⟩

@[simp] theorem indices_portion (lo hi : Nat) :
    (portion data request lo hi).indices = (lo, hi) := rfl

/-- Two responses that carry their bytes and name one range are one
response. -/
theorem Carries.eq {r r' : GetBlobStreamResponse} (h : Carries data request r)
    (h' : Carries data request r') (hidx : r.indices = r'.indices) : r = r' := by
  obtain ⟨md, d, ⟨b, e⟩⟩ := r
  obtain ⟨md', d', ⟨b', e'⟩⟩ := r'
  obtain ⟨hd, hm⟩ := h
  obtain ⟨hd', hm'⟩ := h'
  simp only [GetBlobStreamResponse.indices, Prod.mk.injEq] at hidx
  obtain ⟨rfl, rfl⟩ := hidx
  simp_all

theorem eq_of_map_indices :
    ∀ {rs rs' : List GetBlobStreamResponse}, (∀ r ∈ rs, Carries data request r) →
      (∀ r ∈ rs', Carries data request r) →
      rs.map GetBlobStreamResponse.indices = rs'.map GetBlobStreamResponse.indices → rs = rs'
  | [], [], _, _, _ => rfl
  | r :: rs, r' :: rs', h, h', hmap => by
      rw [List.map_cons, List.map_cons, List.cons.injEq] at hmap
      have hhead := Carries.eq (h r List.mem_cons_self) (h' r' List.mem_cons_self) hmap.1
      have htail := eq_of_map_indices (fun x hx => h x (List.mem_cons_of_mem r hx))
        (fun x hx => h' x (List.mem_cons_of_mem r' hx)) hmap.2
      rw [hhead, htail]

/-- A stream of a request is fixed by the request and the object. -/
theorem Streams.unique {rs rs' : List GetBlobStreamResponse} (h : Streams data request rs)
    (h' : Streams data request rs') : rs = rs' :=
  eq_of_map_indices h.carries h'.carries (h.chunked.unique h'.chunked)

/-- The bytes of a stream, put together, are the requested bytes of the
object. -/
theorem Streams.flatten_data {rs : List GetBlobStreamResponse} (h : Streams data request rs) :
    (rs.map GetBlobStreamResponse.data).flatten = slice data (firstIndex request) (lastIndex data request) := by
  have hmap : rs.map GetBlobStreamResponse.data =
      (rs.map GetBlobStreamResponse.indices).map fun p => slice data p.1 p.2 := by
    rw [List.map_map]
    exact List.map_congr_left fun r hr => (h.carries r hr).data_eq
  rw [hmap]
  exact h.chunked.flatten_slice data

theorem Pushed.start (data : List UInt8) (request : GetBlobStreamRequest) :
    Pushed data request (firstIndex request) [] :=
  ⟨Extends.start _ _ _, fun _ h => absurd h List.not_mem_nil⟩

theorem Pushed.full {cur : Nat} {pushed : List GetBlobStreamResponse}
    (h : Pushed data request cur pushed) (hle : cur + readSize request ≤ lastIndex data request) :
    Pushed data request (cur + readSize request)
      (pushed ++ [portion data request cur (cur + readSize request - 1)]) := by
  constructor
  · rw [List.map_append, List.map_singleton, indices_portion]
    exact h.chunks.full hle
  · intro r hr
    rcases List.mem_append.mp hr with hr | hr
    · exact h.carries r hr
    · rw [List.mem_singleton.mp hr]
      exact carries_portion data request _ _

theorem Pushed.finish {cur : Nat} {pushed : List GetBlobStreamResponse}
    (h : Pushed data request cur pushed) (hle : cur ≤ lastIndex data request)
    (hlt : lastIndex data request < cur + readSize request) :
    Streams data request (pushed ++ [portion data request cur (lastIndex data request)]) := by
  constructor
  · rw [List.map_append, List.map_singleton, indices_portion]
    exact h.chunks.finish hle hlt
  · intro r hr
    rcases List.mem_append.mp hr with hr | hr
    · exact h.carries r hr
    · rw [List.mem_singleton.mp hr]
      exact carries_portion data request _ _

theorem begin_le_end_of_valid (hv : validateGetBlobRequest request = successExecutionResult)
    {br : ByteRange} (hbr : request.byteRange = some br) : br.beginByteIndex ≤ br.endByteIndex := by
  unfold validateGetBlobRequest at hv
  rw [hbr] at hv
  split at hv
  · exact absurd hv (failureExecutionResult_ne_success _)
  · split at hv
    · exact absurd hv (failureExecutionResult_ne_success _)
    · simp_all

theorem firstIndex_of_some {br : ByteRange} (h : request.byteRange = some br) :
    firstIndex request = br.beginByteIndex := by
  simp [firstIndex, GetBlobStreamRequest.byteRangeOrDefault, h]

theorem firstIndex_of_none (h : request.byteRange = none) : firstIndex request = 0 := by
  simp [firstIndex, GetBlobStreamRequest.byteRangeOrDefault, h]

theorem lastIndex_of_some {br : ByteRange} (h : request.byteRange = some br) :
    lastIndex data request = min br.endByteIndex (data.length - 1) := by
  simp [lastIndex, h]

theorem lastIndex_of_none (h : request.byteRange = none) :
    lastIndex data request = data.length - 1 := by
  simp [lastIndex, h]

theorem Readable.first_le_last (h : Readable data request) :
    firstIndex request ≤ lastIndex data request := by
  have hlt := h.first_lt
  cases hbr : request.byteRange with
  | none =>
      rw [firstIndex_of_none hbr, lastIndex_of_none hbr]
      omega
  | some br =>
      have hle := begin_le_end_of_valid h.valid hbr
      rw [firstIndex_of_some hbr] at hlt ⊢
      rw [lastIndex_of_some hbr]
      omega

theorem lastIndex_le (data : List UInt8) (request : GetBlobStreamRequest) :
    lastIndex data request ≤ data.length - 1 := by
  unfold lastIndex
  split <;> omega

theorem lastIndex_lt (data : List UInt8) (request : GetBlobStreamRequest)
    (hL : 0 < data.length) : lastIndex data request < data.length := by
  have := lastIndex_le data request
  omega

end Spec

/-! ## The AWS stream -/

/-- The last index of the chunk at `cur`. -/
def chunkEnd (data : List UInt8) (request : GetBlobStreamRequest) (cur : Nat) : Nat :=
  min (lastIndex data request) (cur + readSize request - 1)

/-- The end of the range AWS asks for at `cur`: one portion on, cut at the
request's end when it has a range. -/
def awsRangeEnd (request : GetBlobStreamRequest) (cur : Nat) : Nat :=
  match request.byteRange with
  | some br => min br.endByteIndex (cur + readSize request - 1)
  | none => cur + readSize request - 1

/-- The AWS stream waiting for S3 to answer the range at `cur`. -/
def awsAt (request : GetBlobStreamRequest) (cur : Nat) (pushed : List GetBlobStreamResponse) :
    AwsStream :=
  ⟨⟨cur, awsRangeEnd request cur, readSize request⟩, pushed⟩

/-- A finished stream: success, with the portions it was to push. -/
def Finished (data : List UInt8) (request : GetBlobStreamRequest) (outcome : StreamOutcome) :
    Prop :=
  outcome.2 = successExecutionResult ∧ Streams data request outcome.1

/-- Between two callbacks the range in flight is the chunk at `cur`, inside
the requested range, after full portions. -/
def AwsInv (data : List UInt8) (request : GetBlobStreamRequest) (s : AwsStream) : Prop :=
  ∃ cur pushed, s = awsAt request cur pushed ∧ cur ≤ lastIndex data request ∧
    Pushed data request cur pushed

section Aws

variable {data : List UInt8} {request : GetBlobStreamRequest} {cur : Nat}

theorem chunkEnd_of_last (hlt : lastIndex data request < cur + readSize request) :
    chunkEnd data request cur = lastIndex data request := by
  unfold chunkEnd
  omega

theorem chunkEnd_of_full (hle : cur + readSize request ≤ lastIndex data request) :
    chunkEnd data request cur = cur + readSize request - 1 := by
  unfold chunkEnd
  omega

theorem awsStart_eq (request : GetBlobStreamRequest) :
    (⟨awsStartTracker request, []⟩ : AwsStream) = awsAt request (firstIndex request) [] := by
  cases hbr : request.byteRange with
  | none => simp [awsStartTracker, awsAt, awsRangeEnd, firstIndex_of_none hbr, hbr]
  | some br => simp [awsStartTracker, awsAt, awsRangeEnd, firstIndex_of_some hbr, hbr]

/-- Cut at the object's last byte, the range at `cur` is the chunk at `cur`. -/
theorem min_awsRangeEnd (data : List UInt8) (request : GetBlobStreamRequest) (cur : Nat) :
    min (awsRangeEnd request cur) (data.length - 1) = chunkEnd data request cur := by
  unfold chunkEnd awsRangeEnd
  cases hbr : request.byteRange with
  | none => simp only [lastIndex_of_none hbr]; omega
  | some br => simp only [lastIndex_of_some hbr]; omega

theorem le_awsRangeEnd (hle : cur ≤ lastIndex data request) :
    cur ≤ awsRangeEnd request cur := by
  have hR := readSize_pos request
  unfold awsRangeEnd
  cases hbr : request.byteRange with
  | none => simp only; omega
  | some br =>
      rw [lastIndex_of_some hbr] at hle
      simp only
      omega

/-- S3's `ContentLength` for the range at `cur` moves its end to the chunk's
end. -/
theorem truncatedEnd_awsAt (hlt : cur < data.length) (hle : cur ≤ lastIndex data request) :
    truncatedEnd ⟨cur, awsRangeEnd request cur, readSize request⟩
      (slice data cur (awsRangeEnd request cur)).length = chunkEnd data request cur := by
  have hmin := min_awsRangeEnd data request cur
  have hcur := le_awsRangeEnd hle
  rw [length_slice]
  unfold truncatedEnd
  dsimp only
  split <;> omega

/-- `OnGetObjectStreamCallback` on the range at `cur`: it pushes the chunk at
`cur` and decides on its end. -/
theorem onGetObjectStreamCallback_awsAt (hL : 0 < data.length)
    (hle : cur ≤ lastIndex data request) (pushed : List GetBlobStreamResponse) :
    onGetObjectStreamCallback data request (awsAt request cur pushed) =
      if isStreamDone request (chunkEnd data request cur) data.length then
        .inr (pushed ++ [portion data request cur (chunkEnd data request cur)],
          successExecutionResult)
      else
        .inl ⟨⟨chunkEnd data request cur + 1,
          nextEndIndex request ⟨cur, awsRangeEnd request cur, readSize request⟩
            (chunkEnd data request cur), readSize request⟩,
          pushed ++ [portion data request cur (chunkEnd data request cur)]⟩ := by
  have hlt : cur < data.length := lt_of_le_of_lt hle (lastIndex_lt data request hL)
  have hslice : slice data cur (awsRangeEnd request cur) = slice data cur (chunkEnd data request cur) := by
    rw [← min_awsRangeEnd data request cur, slice_min_length data _ hlt]
  have hget : getObject data cur (awsRangeEnd request cur) =
      some ⟨slice data cur (awsRangeEnd request cur),
        (slice data cur (awsRangeEnd request cur)).length, data.length⟩ := if_pos hlt
  simp only [onGetObjectStreamCallback, awsAt, hget, truncatedEnd_awsAt hlt hle]
  simp only [List.take_length, hslice, portion]

theorem isStreamDone_of_last (hlt : lastIndex data request < cur + readSize request) :
    isStreamDone request (chunkEnd data request cur) data.length = true := by
  rw [chunkEnd_of_last hlt]
  unfold isStreamDone GetBlobStreamRequest.byteRangeOrDefault
  cases hbr : request.byteRange with
  | none => simp [lastIndex_of_none hbr]
  | some br =>
      rw [lastIndex_of_some hbr]
      by_cases he : br.endByteIndex ≤ data.length - 1
      · simp [Nat.min_eq_left he]
      · simp only [Option.getD_some, Bool.or_eq_true, decide_eq_true_eq, beq_iff_eq]
        omega

/-- A full chunk ends the AWS stream only when the request has no range and
the chunk is the single byte at index 0. -/
theorem isStreamDone_of_full
    (hbug : request.byteRange.isSome ∨ 2 ≤ readSize request ∨ data.length = 1)
    (hle : cur + readSize request ≤ lastIndex data request) :
    isStreamDone request (chunkEnd data request cur) data.length = false := by
  have hR := readSize_pos request
  have hlast := lastIndex_le data request
  rw [chunkEnd_of_full hle]
  unfold isStreamDone GetBlobStreamRequest.byteRangeOrDefault
  cases hbr : request.byteRange with
  | none =>
      rw [lastIndex_of_none hbr] at hle
      simp only [hbr, Option.isSome_none, Bool.false_eq_true, false_or] at hbug
      simp only [Option.getD_none, Bool.or_eq_false_iff, decide_eq_false_iff_not, beq_eq_false_iff_ne]
      omega
  | some br =>
      rw [lastIndex_of_some hbr] at hle
      simp only [Option.getD_some, Bool.or_eq_false_iff, decide_eq_false_iff_not, beq_eq_false_iff_ne]
      omega

theorem nextEndIndex_of_full (hle : cur + readSize request ≤ lastIndex data request) :
    nextEndIndex request ⟨cur, awsRangeEnd request cur, readSize request⟩
      (chunkEnd data request cur) = awsRangeEnd request (cur + readSize request) := by
  have hR := readSize_pos request
  rw [chunkEnd_of_full hle]
  unfold nextEndIndex awsRangeEnd GetBlobStreamRequest.byteRangeOrDefault
  cases hbr : request.byteRange with
  | none => simp only [Option.isSome_none, Bool.false_and, Bool.false_eq_true, if_false]; omega
  | some br =>
      simp only [Option.isSome_some, Bool.true_and, decide_eq_true_eq, Option.getD_some]
      split <;> omega

theorem onGetObjectStreamCallback_of_last (hL : 0 < data.length)
    (hle : cur ≤ lastIndex data request) (hlt : lastIndex data request < cur + readSize request)
    (pushed : List GetBlobStreamResponse) :
    onGetObjectStreamCallback data request (awsAt request cur pushed) =
      .inr (pushed ++ [portion data request cur (lastIndex data request)], successExecutionResult) := by
  rw [onGetObjectStreamCallback_awsAt hL hle, if_pos (isStreamDone_of_last hlt),
    chunkEnd_of_last hlt]

theorem onGetObjectStreamCallback_of_full (hL : 0 < data.length)
    (hbug : request.byteRange.isSome ∨ 2 ≤ readSize request ∨ data.length = 1)
    (hle : cur + readSize request ≤ lastIndex data request) (pushed : List GetBlobStreamResponse) :
    onGetObjectStreamCallback data request (awsAt request cur pushed) =
      .inl (awsAt request (cur + readSize request)
        (pushed ++ [portion data request cur (cur + readSize request - 1)])) := by
  have hR := readSize_pos request
  rw [onGetObjectStreamCallback_awsAt hL (by omega),
    if_neg (by rw [isStreamDone_of_full hbug hle]; decide), nextEndIndex_of_full hle,
    chunkEnd_of_full hle, Nat.sub_add_cancel (by omega : 1 ≤ cur + readSize request)]
  rfl

/-- Each callback either finishes the stream as it should be, or asks for the
next chunk, one chunk further on. -/
theorem awsInv_progress (hL : 0 < data.length)
    (hbug : request.byteRange.isSome ∨ 2 ≤ readSize request ∨ data.length = 1) :
    Loop.Progress (onGetObjectStreamCallback data request) (AwsInv data request)
      (Finished data request) fun s => lastIndex data request + 1 - s.tracker.lastBeginByteIndex := by
  rintro s ⟨cur, pushed, rfl, hle, hp⟩
  by_cases hlt : lastIndex data request < cur + readSize request
  · exact .inl ⟨_, onGetObjectStreamCallback_of_last hL hle hlt pushed, rfl, hp.finish hle hlt⟩
  · have hfull : cur + readSize request ≤ lastIndex data request := by omega
    have hR := readSize_pos request
    refine .inr ⟨_, onGetObjectStreamCallback_of_full hL hbug hfull pushed,
      ⟨_, _, rfl, hfull, hp.full hfull⟩, ?_⟩
    simp only [awsAt]
    omega

end Aws

/-! ## The GCP stream -/

/-- The GCP stream about to hand out the chunk at `cur`: the read stream
holds the bytes from `cur` to the last index. -/
def gcpAt (data : List UInt8) (request : GetBlobStreamRequest) (cur : Nat)
    (pushed : List GetBlobStreamResponse) : GcpStream :=
  ⟨⟨slice data cur (lastIndex data request), (cur : Int) - 1, lastIndex data request + 1 - cur⟩,
    pushed⟩

/-- Between two rounds the GCP stream is at the chunk at `cur`, inside the
requested range, after full portions. -/
def GcpInv (data : List UInt8) (request : GetBlobStreamRequest) (s : GcpStream) : Prop :=
  ∃ cur pushed, s = gcpAt data request cur pushed ∧ cur ≤ lastIndex data request ∧
    Pushed data request cur pushed

section Gcp

variable {data : List UInt8} {request : GetBlobStreamRequest} {cur : Nat}

theorem initGetBlobStreamTracker_eq (h : Readable data request) :
    initGetBlobStreamTracker data request = .ok (gcpAt data request (firstIndex request) []).tracker := by
  have hlt := h.first_lt
  have hle := h.first_le_last
  unfold initGetBlobStreamTracker readObject gcpAt
  cases hbr : request.byteRange with
  | none =>
      rw [firstIndex_of_none hbr] at hle hlt ⊢
      rw [lastIndex_of_none hbr, slice_length_sub_one]
      simp only [GetBlobStreamRequest.byteRangeOrDefault, hbr, Option.getD_none, Except.ok.injEq,
        GcpTracker.mk.injEq, true_and]
      omega
  | some br =>
      rw [firstIndex_of_some hbr] at hle hlt ⊢
      rw [lastIndex_of_some hbr, slice_min_length data _ hlt]
      simp only [if_pos hlt, GetBlobStreamRequest.byteRangeOrDefault, hbr, Option.getD_some,
        Except.ok.injEq, GcpTracker.mk.injEq, true_and]
      split <;> omega

theorem getBlobStreamInternal_of_last (hle : cur ≤ lastIndex data request)
    (hlt : lastIndex data request < cur + readSize request) (pushed : List GetBlobStreamResponse) :
    getBlobStreamInternal request (gcpAt data request cur pushed) =
      .inr (pushed ++ [portion data request cur (lastIndex data request)], successExecutionResult) := by
  have hmin : min (readSize request) (lastIndex data request + 1 - cur) =
      lastIndex data request + 1 - cur := by omega
  have hbegin : ((cur : Int) - 1 + 1).toNat = cur := by omega
  have hend : cur + (lastIndex data request + 1 - cur) - 1 = lastIndex data request := by omega
  have htake : (slice data cur (lastIndex data request)).take (lastIndex data request + 1 - cur) =
      slice data cur (lastIndex data request) := by
    rw [take_slice data (by omega) le_rfl, hend]
  simp only [getBlobStreamInternal, readNextPortion, gcpAt, hmin, hbegin, hend, htake,
    Nat.sub_self, if_true, portion]

theorem getBlobStreamInternal_of_full (hle : cur + readSize request ≤ lastIndex data request)
    (pushed : List GetBlobStreamResponse) :
    getBlobStreamInternal request (gcpAt data request cur pushed) =
      .inl (gcpAt data request (cur + readSize request)
        (pushed ++ [portion data request cur (cur + readSize request - 1)])) := by
  have hR := readSize_pos request
  have hmin : min (readSize request) (lastIndex data request + 1 - cur) = readSize request := by
    omega
  have hbegin : ((cur : Int) - 1 + 1).toNat = cur := by omega
  have hrest : lastIndex data request + 1 - cur - readSize request ≠ 0 := by omega
  have hlast : ((cur + readSize request - 1 : Nat) : Int) = ((cur + readSize request : Nat) : Int) - 1 := by
    omega
  simp only [getBlobStreamInternal, readNextPortion, gcpAt, hmin, hbegin, if_neg hrest,
    take_slice data hR (by omega : readSize request ≤ lastIndex data request + 1 - cur),
    drop_slice, hlast, portion, Sum.inl.injEq, GcpStream.mk.injEq, GcpTracker.mk.injEq, and_true,
    true_and]
  omega

/-- Each round either finishes the stream as it should be, or hands out a
full chunk and moves on by one chunk. -/
theorem gcpInv_progress :
    Loop.Progress (getBlobStreamInternal request) (GcpInv data request) (Finished data request)
      fun s => s.tracker.bytesRemaining := by
  rintro s ⟨cur, pushed, rfl, hle, hp⟩
  by_cases hlt : lastIndex data request < cur + readSize request
  · exact .inl ⟨_, getBlobStreamInternal_of_last hle hlt pushed, rfl, hp.finish hle hlt⟩
  · have hfull : cur + readSize request ≤ lastIndex data request := by omega
    have hR := readSize_pos request
    refine .inr ⟨_, getBlobStreamInternal_of_full hfull pushed,
      ⟨_, _, rfl, hfull, hp.full hfull⟩, ?_⟩
    simp only [gcpAt]
    omega

end Gcp

/-! ## Both providers against the spec -/

section Streams

variable {data : List UInt8} {request : GetBlobStreamRequest} {fuel : Nat}

/-- The GCP stream of a readable request pushes the chunks of the range and
finishes with success, given more rounds than the object has bytes. -/
theorem gcpGetBlobStream_streams (h : Readable data request) (hfuel : data.length < fuel) :
    ∃ responses, gcpGetBlobStream data request fuel = some (responses, successExecutionResult) ∧
      Streams data request responses := by
  have hL : 0 < data.length := lt_of_le_of_lt (Nat.zero_le _) h.first_lt
  have hlast := lastIndex_le data request
  have hstart : GcpInv data request (gcpAt data request (firstIndex request) []) :=
    ⟨_, _, rfl, h.first_le_last, Pushed.start data request⟩
  have hpot : (gcpAt data request (firstIndex request) []).tracker.bytesRemaining < fuel := by
    simp only [gcpAt]
    omega
  obtain ⟨⟨responses, result⟩, hrun, hresult, hstreams⟩ :=
    Loop.run_of_progress gcpInv_progress hstart hpot
  dsimp only at hresult hstreams
  subst hresult
  refine ⟨responses, ?_, hstreams⟩
  simp only [gcpGetBlobStream, h.valid, successExecutionResult_successful, if_true,
    initGetBlobStreamTracker_eq h]
  exact hrun

/-- The AWS stream of a readable request does the same, unless the request
has no range and one byte per portion over an object of two bytes or more. -/
theorem awsGetBlobStream_streams (h : Readable data request)
    (hbug : request.byteRange.isSome ∨ 2 ≤ readSize request ∨ data.length = 1)
    (hfuel : data.length < fuel) :
    ∃ responses, awsGetBlobStream data request fuel = some (responses, successExecutionResult) ∧
      Streams data request responses := by
  have hL : 0 < data.length := lt_of_le_of_lt (Nat.zero_le _) h.first_lt
  have hlast := lastIndex_le data request
  have hstart : AwsInv data request (awsAt request (firstIndex request) []) :=
    ⟨_, _, rfl, h.first_le_last, Pushed.start data request⟩
  have hpot : lastIndex data request + 1 -
      (awsAt request (firstIndex request) []).tracker.lastBeginByteIndex < fuel := by
    simp only [awsAt]
    omega
  obtain ⟨⟨responses, result⟩, hrun, hresult, hstreams⟩ :=
    Loop.run_of_progress (awsInv_progress hL hbug) hstart hpot
  dsimp only at hresult hstreams
  subst hresult
  refine ⟨responses, ?_, hstreams⟩
  simp only [awsGetBlobStream, h.valid, successExecutionResult_successful, if_true, awsStart_eq]
  exact hrun

/-- Where the AWS stream is right, the two providers push the same portions. -/
theorem awsGetBlobStream_eq_gcpGetBlobStream (h : Readable data request)
    (hbug : request.byteRange.isSome ∨ 2 ≤ readSize request ∨ data.length = 1)
    (hfuel : data.length < fuel) :
    awsGetBlobStream data request fuel = gcpGetBlobStream data request fuel := by
  obtain ⟨rs, haws, hs⟩ := awsGetBlobStream_streams h hbug hfuel
  obtain ⟨rs', hgcp, hs'⟩ := gcpGetBlobStream_streams h hfuel
  rw [haws, hgcp, hs.unique hs']

/-- Without a range and with one byte per portion, the AWS stream ends after
the first byte: that chunk ends at index 0, the `end_byte_index` of the
unset range. On an object of two bytes or more the GCP stream goes on. -/
theorem awsGetBlobStream_stops_at_first_byte (h : Readable data request)
    (hnone : request.byteRange = none) (hone : readSize request = 1) (hfuel : data.length < fuel) :
    awsGetBlobStream data request fuel = some ([portion data request 0 0], successExecutionResult) ∧
      (2 ≤ data.length → awsGetBlobStream data request fuel ≠ gcpGetBlobStream data request fuel) := by
  have hL : 0 < data.length := lt_of_le_of_lt (Nat.zero_le _) h.first_lt
  have hfirst := firstIndex_of_none hnone
  have hend : chunkEnd data request 0 = 0 := by
    unfold chunkEnd
    omega
  have hdone : isStreamDone request 0 data.length = true := by
    simp [isStreamDone, GetBlobStreamRequest.byteRangeOrDefault, hnone]
  have hstep : onGetObjectStreamCallback data request (awsAt request 0 []) =
      .inr ([portion data request 0 0], successExecutionResult) := by
    rw [onGetObjectStreamCallback_awsAt hL (Nat.zero_le _), hend, if_pos hdone, List.nil_append]
  obtain ⟨n, rfl⟩ : ∃ n, fuel = n + 1 := ⟨fuel - 1, by omega⟩
  have haws : awsGetBlobStream data request (n + 1) =
      some ([portion data request 0 0], successExecutionResult) := by
    simp only [awsGetBlobStream, h.valid, successExecutionResult_successful, if_true, awsStart_eq,
      hfirst]
    exact Loop.run_succ_of_stop n hstep
  refine ⟨haws, fun hL2 hsame => ?_⟩
  obtain ⟨rs, hgcp, hs⟩ := gcpGetBlobStream_streams h hfuel
  rw [haws, hgcp, Option.some.injEq, Prod.mk.injEq] at hsame
  -- the GCP portions put together are the whole object, of two bytes or more
  have hbytes := hs.flatten_data
  rw [← hsame.1, hfirst, lastIndex_of_none hnone, slice_length_sub_one] at hbytes
  have hlen := congrArg List.length hbytes
  simp only [List.map_cons, List.map_nil, List.flatten_cons, List.flatten_nil, List.append_nil,
    portion, length_slice] at hlen
  omega

/-- A blob of two bytes. -/
def twoByteBlob : List UInt8 := [7, 9]

/-- The whole blob, one byte per portion. -/
def byteByByteRequest : GetBlobStreamRequest := ⟨⟨"bucket", "blob"⟩, none, 1⟩

theorem awsGetBlobStream_ends_after_first_byte :
    awsGetBlobStream twoByteBlob byteByByteRequest 3 =
        some ([⟨⟨"bucket", "blob"⟩, [7], ⟨0, 0⟩⟩], successExecutionResult) ∧
      gcpGetBlobStream twoByteBlob byteByByteRequest 3 =
        some ([⟨⟨"bucket", "blob"⟩, [7], ⟨0, 0⟩⟩, ⟨⟨"bucket", "blob"⟩, [9], ⟨1, 1⟩⟩],
          successExecutionResult) := by
  decide

end Streams

end ControlPlane.Blob
