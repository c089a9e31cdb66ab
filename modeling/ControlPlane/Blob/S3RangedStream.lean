import ControlPlane.Lib.Loop
import Mathlib.Data.List.Basic

/-!
# `S3RangedStream`: an `InputStream` over ranged S3 reads

`S3RangedStream` (src/java/com/google/scp/operator/cpio/blobstorageclient/aws)
reads an S3 object through a buffer: when the buffer is empty, `read` asks
S3 for the next `rangedHttpBufferSize` bytes from `currentFileOffset`, takes
the object's length from the response's `Content-Range`, and sets
`isEndOfFile` once the offset reaches it; the bytes then leave the buffer in
the order they came.

Against an object that S3 serves as it is, every call of a session hands
out the next bytes of the object, as many as the call asks for and the
object still has; a call returns `-1` exactly when the whole object has
been handed out (`readCall_objectClient`, `session_objectClient`).

## Implementation notes

The S3 client is a function of the requested range; `Content-Range` is its
last field, the object's length, with `none` for `*`. A Java `byte[]` is a
`List UInt8` that `ByteBuffer.get` overwrites in place, and the `int` and
`long` fields are `Nat`: they stay between 0 and the object's length. An
exception leaves the stream with the fields assigned before it. The `while`
loop of `read` runs for at most `readSize + 1` passes; a pass that copies
nothing repeats forever, which the model reports as `none`.
-/

namespace ControlPlane.Blob

variable {α : Type*}

/-- The array `dst` with the cells from `offset` on overwritten by `bytes`. -/
def copyInto (dst : List α) (offset : Nat) (bytes : List α) : List α :=
  dst.take offset ++ bytes ++ dst.drop (offset + bytes.length)

theorem length_copyInto {dst : List α} {offset : Nat} {bytes : List α}
    (h : offset + bytes.length ≤ dst.length) : (copyInto dst offset bytes).length = dst.length := by
  simp only [copyInto, List.length_append, List.length_take, List.length_drop]
  omega

theorem copyInto_nil (dst : List α) (offset : Nat) : copyInto dst offset [] = dst := by
  simp [copyInto, List.take_append_drop]

/-- Two copies one after the other are one copy of both. -/
theorem copyInto_copyInto {dst : List α} {offset : Nat} {xs ys : List α}
    (h : offset + xs.length + ys.length ≤ dst.length) :
    copyInto (copyInto dst offset xs) (offset + xs.length) ys = copyInto dst offset (xs ++ ys) := by
  have hfront : (dst.take offset ++ xs).length = offset + xs.length := by simp; omega
  have htake : (copyInto dst offset xs).take (offset + xs.length) = dst.take offset ++ xs := by
    rw [copyInto, List.take_left' hfront]
  have hdrop : (copyInto dst offset xs).drop (offset + xs.length + ys.length) =
      dst.drop (offset + xs.length + ys.length) := by
    rw [copyInto, List.drop_append, List.drop_eq_nil_of_le (by rw [hfront]; omega),
      List.nil_append, hfront, List.drop_drop]
    congr 1
    omega
  rw [copyInto, htake, hdrop, copyInto, List.length_append, Nat.add_assoc]
  simp only [List.append_assoc]

/-- The bytes a copy put at `offset`. -/
theorem copyInto_slice (dst : List α) {offset : Nat} {bytes : List α}
    (h : offset + bytes.length ≤ dst.length) :
    ((copyInto dst offset bytes).drop offset).take bytes.length = bytes := by
  have hlen : (dst.take offset).length = offset := by simp; omega
  rw [copyInto, List.append_assoc, List.drop_left' hlen, List.take_left' rfl]

/-! ## The stream -/

/-- What a ranged `GetObject` returns: the bytes, `contentLength`, and the
object's length from `contentRange`, `none` for `*`. -/
structure RangeResponse where
  bytes : List UInt8
  contentLength : Nat
  fileLength : Option Nat

/-- An `SdkException` of the S3 client. -/
structure SdkException where
  message : String
  deriving DecidableEq, Repr

/-- What `read` can throw: the `IOException` around a
`BlobStorageClientException`, the `IOException` for an unknown length, and
what `ByteBuffer.get` throws. -/
inductive StreamException
  | blobStorageClient (e : SdkException)
  | unknownFileLength
  | indexOutOfBounds
  | bufferUnderflow
  | nullPointer
  deriving DecidableEq, Repr

/-- A `java.nio.ByteBuffer` that wraps an array: the array and the position. -/
structure ByteBuffer where
  array : List UInt8
  position : Nat

def ByteBuffer.wrap (array : List UInt8) : ByteBuffer := ⟨array, 0⟩

def ByteBuffer.remaining (buffer : ByteBuffer) : Nat := buffer.array.length - buffer.position

/-- `ByteBuffer.get(dst, offset, length)`: the bounds of `dst` are checked
first, then what the buffer has left. -/
def ByteBuffer.get (buffer : ByteBuffer) (dst : List UInt8) (offset length : Nat) :
    Except StreamException (ByteBuffer × List UInt8) :=
  if dst.length < offset + length then .error .indexOutOfBounds
  else if buffer.remaining < length then .error .bufferUnderflow
  else
    .ok (⟨buffer.array, buffer.position + length⟩,
      copyInto dst offset ((buffer.array.drop buffer.position).take length))

/-- The fields of an `S3RangedStream`; `buffer` is `null` until the first
request. -/
structure S3RangedStream where
  currentFileOffset : Nat
  rangedHttpBufferSize : Nat
  availableBufferSize : Nat
  buffer : Option ByteBuffer
  isEndOfFile : Bool

/-- A call of a reader: `read()`, `read(b)` or `read(b, offset, readSize)`. -/
inductive ReadCall
  | read
  | readArray (b : List UInt8)
  | readRange (b : List UInt8) (offset readSize : Nat)

/-- The number of bytes a call asks for. -/
def ReadCall.size : ReadCall → Nat
  | .read => 1
  | .readArray b => b.length
  | .readRange _ _ readSize => readSize

/-- A call within the bounds of its array. -/
def ReadCall.Valid : ReadCall → Prop
  | .readRange b offset readSize => offset + readSize ≤ b.length
  | _ => True

instance (call : ReadCall) : Decidable call.Valid :=
  match call with
  | .read => isTrue trivial
  | .readArray _ => isTrue trivial
  | .readRange b offset readSize => inferInstanceAs (Decidable (offset + readSize ≤ b.length))

/-- What an `InputStream` over `object` answers to a call after handing out
its first `delivered` bytes: `-1` at the end, else the next bytes, as many as
the call asks for and are left. -/
def idealAnswer (object : List UInt8) (delivered : Nat) (call : ReadCall) : Int × List UInt8 :=
  if delivered = object.length then (-1, [])
  else
    let bytes := (object.drop delivered).take call.size
    match call with
    | .read => (((bytes.headD 0).toNat : Nat), bytes)
    | _ => (bytes.length, bytes)

def idealSession (object : List UInt8) : Nat → List ReadCall → List (Int × List UInt8)
  | _, [] => []
  | delivered, call :: calls =>
    let answer := idealAnswer object delivered call
    answer :: idealSession object (delivered + answer.2.length) calls

/-- The bytes of an answer are the next ones of the object. -/
theorem idealAnswer_bytes (object : List UInt8) (delivered : Nat) (call : ReadCall) :
    (idealAnswer object delivered call).2 =
      (object.drop delivered).take (min call.size (object.length - delivered)) := by
  unfold idealAnswer
  split
  · next hdone => simp [hdone]
  · have hbytes : (object.drop delivered).take (min call.size (object.length - delivered)) =
        (object.drop delivered).take call.size := by
      rw [List.take_eq_take_iff, List.length_drop]
      omega
    rw [hbytes]
    cases call <;> rfl

theorem idealAnswer_eq_neg_one_iff (object : List UInt8) (delivered : Nat) (call : ReadCall) :
    (idealAnswer object delivered call).1 = -1 ↔ delivered = object.length := by
  unfold idealAnswer
  split
  · next hdone => simp [hdone]
  · next hdone =>
    simp only [hdone, iff_false]
    -- short of the end the answer is a count or a byte, never -1
    cases call <;> dsimp only <;> omega

/-- A call that asks for bytes while some are left gets at least one, and
an array call returns how many. -/
theorem idealAnswer_pos (object : List UInt8) {delivered : Nat} {call : ReadCall}
    (hsize : 0 < call.size) (hlt : delivered < object.length) :
    0 < (idealAnswer object delivered call).2.length ∧
      (call = .read ∨ (idealAnswer object delivered call).1 = (idealAnswer object delivered call).2.length) := by
  have hne : delivered ≠ object.length := by omega
  constructor
  · rw [idealAnswer_bytes]
    simp
    omega
  · cases call with
    | read => exact .inl rfl
    | readArray b => exact .inr (by simp [idealAnswer, hne])
    | readRange b offset readSize => exact .inr (by simp [idealAnswer, hne])

/-- What a session gets, put together, is a prefix of what was left. -/
theorem flatten_idealSession_prefix (object : List UInt8) (calls : List ReadCall) (delivered : Nat) :
    ((idealSession object delivered calls).map Prod.snd).flatten <+: object.drop delivered := by
  induction calls generalizing delivered with
  | nil => exact List.nil_prefix
  | cons call calls ih =>
    have hk : ((object.drop delivered).take (min call.size (object.length - delivered))).length =
        min call.size (object.length - delivered) := by
      simp only [List.length_take, List.length_drop]
      omega
    simp only [idealSession, List.map_cons, List.flatten_cons]
    rw [idealAnswer_bytes, hk]
    have hrest := ih (delivered + min call.size (object.length - delivered))
    rw [← List.drop_drop] at hrest
    -- the answer's bytes come first, the rest of the session follows them
    conv_rhs => rw [← List.take_append_drop (min call.size (object.length - delivered))
      (object.drop delivered)]
    exact (List.prefix_append_right_inj _).mpr hrest

/-- The answer to the `i`-th call is the ideal answer after what the calls
before it got. -/
theorem idealSession_getElem? (object : List UInt8) (calls : List ReadCall) (delivered : Nat) :
    ∀ i call answer, calls[i]? = some call → (idealSession object delivered calls)[i]? = some answer →
      answer = idealAnswer object
        (delivered + (((idealSession object delivered calls).take i).map Prod.snd).flatten.length) call := by
  induction calls generalizing delivered with
  | nil => simp
  | cons c calls ih =>
    intro i call answer hcall hanswer
    cases i with
    | zero =>
      simp only [List.getElem?_cons_zero, Option.some.injEq] at hcall
      simp only [idealSession, List.getElem?_cons_zero, Option.some.injEq] at hanswer
      subst hcall hanswer
      simp
    | succ i =>
      simp only [List.getElem?_cons_succ] at hcall
      simp only [idealSession, List.getElem?_cons_succ] at hanswer
      rw [ih _ i call answer hcall hanswer]
      simp [idealSession, Nat.add_assoc]

namespace S3RangedStream

/-- The constructor. -/
def new (rangedHttpBufferSize : Nat) : S3RangedStream :=
  ⟨0, rangedHttpBufferSize, 0, none, false⟩

/-- The loop of `read(b, offset, readSize)`: the stream, the array and the
three locals. -/
structure ReadLoop where
  stream : S3RangedStream
  b : List UInt8
  offset : Nat
  readSize : Nat
  currentReadSize : Nat

section Client

-- the S3 client: its answer to a request for the bytes from `start` to `httpRangeEnd`, both included
variable (client : Nat → Int → Except SdkException RangeResponse)

/-- `requestHttpData`. -/
def requestHttpData (s : S3RangedStream) : Except StreamException Unit × S3RangedStream :=
  let httpRangeEnd : Int := s.currentFileOffset + s.rangedHttpBufferSize - 1
  match client s.currentFileOffset httpRangeEnd with
  | .error e => (.error (.blobStorageClient e), s)
  | .ok rangeResponse =>
    let s := { s with buffer := some (ByteBuffer.wrap rangeResponse.bytes) }
    match rangeResponse.fileLength with
    | none => (.error .unknownFileLength, s)
    | some fileLength =>
      let responseSize := rangeResponse.contentLength
      let s := { s with
        currentFileOffset := s.currentFileOffset + responseSize
        availableBufferSize := s.availableBufferSize + responseSize }
      (.ok (), if fileLength ≤ s.currentFileOffset then { s with isEndOfFile := true } else s)

def hasNext (s : S3RangedStream) : Bool := !s.isEndOfFile || 0 < s.availableBufferSize

/-- One pass of the loop of `read(b, offset, readSize)`, or its exit with
what `read` returns. -/
def readStep (l : ReadLoop) :
    ReadLoop ⊕ (Except StreamException Int × S3RangedStream × List UInt8) :=
  if 0 < l.readSize ∧ l.stream.hasNext then
    let (requested, s) :=
      if l.stream.availableBufferSize = 0 then requestHttpData client l.stream else (.ok (), l.stream)
    match requested with
    | .error e => .inr (.error e, s, l.b)
    | .ok () =>
      let currentCopySize := min l.readSize s.availableBufferSize
      match s.buffer with
      | none => .inr (.error .nullPointer, s, l.b)
      | some buffer =>
        match buffer.get l.b l.offset currentCopySize with
        | .error e => .inr (.error e, s, l.b)
        | .ok (buffer, b) =>
          .inl ⟨{ s with
              buffer := some buffer
              availableBufferSize := s.availableBufferSize - currentCopySize },
            b, l.offset + currentCopySize, l.readSize - currentCopySize,
            l.currentReadSize + currentCopySize⟩
  else .inr (.ok l.currentReadSize, l.stream, l.b)

/-- `read(b, offset, readSize)`: the answer, the stream and the array. -/
def read (s : S3RangedStream) (b : List UInt8) (offset readSize : Nat) :
    Option (Except StreamException Int × S3RangedStream × List UInt8) :=
  if !s.hasNext then some (.ok (-1), s, b)
  else Loop.run (readStep client) (readSize + 1) ⟨s, b, offset, readSize, 0⟩

/-- `read()`: one byte through a one-byte array, or `-1`. -/
def readByte (s : S3RangedStream) : Option (Except StreamException Int × S3RangedStream) :=
  (read client s [0] 0 1).map fun (result, s, tmpBuffer) =>
    (result.map fun readSize => if readSize = -1 then readSize else ((tmpBuffer.getD 0 0).toNat : Int), s)

/-- `read(b)`. -/
def readArray (s : S3RangedStream) (b : List UInt8) :
    Option (Except StreamException Int × S3RangedStream × List UInt8) :=
  read client s b 0 b.length

/-- A call's answer and the bytes it handed out: the byte `read()`
returned, or the bytes it put into the array. -/
def readCall (s : S3RangedStream) :
    ReadCall → Option (Except StreamException (Int × List UInt8) × S3RangedStream)
  | .read => (readByte client s).map fun (r, s) =>
      (r.map fun v => (v, if v = -1 then [] else [UInt8.ofNat v.toNat]), s)
  | .readArray b => (readArray client s b).map fun (r, s, b) =>
      (r.map fun n => (n, b.take n.toNat), s)
  | .readRange b offset readSize => (read client s b offset readSize).map fun (r, s, b) =>
      (r.map fun n => (n, (b.drop offset).take n.toNat), s)

/-- The calls of a reader one after the other, up to the first exception. -/
def session (s : S3RangedStream) :
    List ReadCall → Option (Except StreamException (List (Int × List UInt8)) × S3RangedStream)
  | [] => some (.ok [], s)
  | call :: calls =>
    match readCall client s call with
    | none => none
    | some (.error e, s) => some (.error e, s)
    | some (.ok answer, s) => (session s calls).map fun (r, s) => (r.map (answer :: ·), s)

end Client

/-! ## Against an object S3 serves as it is -/

/-- S3 answering for `object`: the bytes of the range cut at the object's
end, their count, and the object's length. -/
def objectClient (object : List UInt8) (start : Nat) (httpRangeEnd : Int) :
    Except SdkException RangeResponse :=
  let bytes := (object.drop start).take (httpRangeEnd + 1 - start).toNat
  .ok ⟨bytes, bytes.length, some object.length⟩

/-- The stream has handed out the first `delivered` bytes of `object`: it
fetched the next `availableBufferSize` bytes and holds them in its buffer,
and it has reached the end of the file when it fetched the last byte. -/
structure Handed (object : List UInt8) (B : Nat) (s : S3RangedStream) (delivered : Nat) : Prop where
  bufferSize : s.rangedHttpBufferSize = B
  offset_le : s.currentFileOffset ≤ object.length
  fetched : delivered + s.availableBufferSize = s.currentFileOffset
  buffered : 0 < s.availableBufferSize → ∃ buffer, s.buffer = some buffer ∧
    buffer.array.drop buffer.position = (object.drop delivered).take s.availableBufferSize
  endOfFile : s.isEndOfFile = true ↔ s.currentFileOffset = object.length

variable {object : List UInt8} {B : Nat}

theorem handed_new (hL : 0 < object.length) : Handed object B (new B) 0 where
  bufferSize := rfl
  offset_le := Nat.zero_le _
  fetched := rfl
  buffered := fun h => absurd h (Nat.lt_irrefl 0)
  endOfFile := by simp [new]; omega

/-- The stream has more to hand out exactly when the object has. -/
theorem Handed.hasNext_iff {s : S3RangedStream} {delivered : Nat}
    (hs : Handed object B s delivered) : s.hasNext = true ↔ delivered < object.length := by
  have hfetched := hs.fetched
  have hle := hs.offset_le
  have heof := hs.endOfFile
  cases hend : s.isEndOfFile
  · have : s.currentFileOffset ≠ object.length := by simpa [hend] using heof
    simp [hasNext, hend]
    omega
  · have : s.currentFileOffset = object.length := heof.mp hend
    simp [hasNext, hend]
    omega

/-- A request from an empty buffer before the end fetches the next bytes. -/
theorem requestHttpData_objectClient {s : S3RangedStream} {delivered : Nat}
    (hs : Handed object B s delivered) (hB : 0 < B) (hempty : s.availableBufferSize = 0)
    (hlt : delivered < object.length) :
    ∃ s', requestHttpData (objectClient object) s = (.ok (), s') ∧
      Handed object B s' delivered ∧ 0 < s'.availableBufferSize := by
  have hfetched := hs.fetched
  have hle := hs.offset_le
  have hcount : ((s.currentFileOffset : Int) + s.rangedHttpBufferSize - 1 + 1 -
      s.currentFileOffset).toNat = B := by
    rw [hs.bufferSize]
    omega
  have hnot_end : s.isEndOfFile = false := by
    have := hs.endOfFile
    cases h : s.isEndOfFile
    · rfl
    · have := this.mp h
      omega
  -- the response: the next `min B (L - offset)` bytes of the object
  have hlength : ((object.drop s.currentFileOffset).take B).length =
      min B (object.length - s.currentFileOffset) := by simp
  have hbytes : (object.drop delivered).take (min B (object.length - s.currentFileOffset)) =
      (object.drop s.currentFileOffset).take B := by
    rw [← hfetched, hempty, Nat.add_zero, List.take_eq_take_iff, List.length_drop]
    omega
  simp only [requestHttpData, objectClient, hcount, hlength]
  refine ⟨_, rfl, ?_⟩
  split
  · next hend =>
    refine ⟨⟨hs.bufferSize, by simp; omega, by simp; omega, ?_, by simp; omega⟩, by simp; omega⟩
    intro _
    refine ⟨_, rfl, ?_⟩
    simp only [ByteBuffer.wrap, List.drop_zero, hempty, Nat.zero_add]
    exact hbytes.symm
  · next hend =>
    refine ⟨⟨hs.bufferSize, by simp; omega, by simp; omega, ?_, ?_⟩, by simp; omega⟩
    · intro _
      refine ⟨_, rfl, ?_⟩
      simp only [ByteBuffer.wrap, List.drop_zero, hempty, Nat.zero_add]
      exact hbytes.symm
    · simp only [hnot_end, Bool.false_eq_true, false_iff]
      omega

/-- Copying `c` of the buffered bytes hands them out. -/
theorem Handed.copy {s : S3RangedStream} {delivered c : Nat} (hs : Handed object B s delivered)
    (hc : 0 < c) (hca : c ≤ s.availableBufferSize) {b : List UInt8} {offset : Nat}
    (hb : offset + c ≤ b.length) :
    ∃ buffer buffer', s.buffer = some buffer ∧
      buffer.get b offset c = .ok (buffer', copyInto b offset ((object.drop delivered).take c)) ∧
      Handed object B { s with buffer := some buffer', availableBufferSize := s.availableBufferSize - c }
        (delivered + c) := by
  obtain ⟨buffer, hbuffer, hbytes⟩ := hs.buffered (by omega)
  have hfetched := hs.fetched
  have hle := hs.offset_le
  have hremaining : buffer.remaining = s.availableBufferSize := by
    have := congrArg List.length hbytes
    simp only [List.length_drop, List.length_take] at this
    rw [ByteBuffer.remaining]
    omega
  have hcopied : (buffer.array.drop buffer.position).take c = (object.drop delivered).take c := by
    rw [hbytes, List.take_take, Nat.min_eq_left hca]
  refine ⟨buffer, ⟨buffer.array, buffer.position + c⟩, hbuffer, ?_, ?_⟩
  · rw [ByteBuffer.get, if_neg (by omega), if_neg (by omega), hcopied]
  · refine ⟨hs.bufferSize, hle, by simp only; omega, ?_, hs.endOfFile⟩
    intro _
    refine ⟨_, rfl, ?_⟩
    simp only
    rw [← List.drop_drop, hbytes, List.drop_take, List.drop_drop]

/-- The loop of a `read` that began with `delivered` bytes handed out, the
array `b`, `offset` and `readSize`: what it copied so far is the next bytes of
the object, at `offset`. -/
def LoopInv (object : List UInt8) (B delivered : Nat) (b : List UInt8) (offset readSize : Nat)
    (l : ReadLoop) : Prop :=
  Handed object B l.stream (delivered + l.currentReadSize) ∧
    l.offset = offset + l.currentReadSize ∧
    l.currentReadSize + l.readSize = readSize ∧
    l.b = copyInto b offset ((object.drop delivered).take l.currentReadSize) ∧
    offset + readSize ≤ b.length

/-- What `read` returns there: as many bytes as asked for and left. -/
def ReadsNext (object : List UInt8) (B delivered : Nat) (b : List UInt8) (offset readSize : Nat)
    (r : Except StreamException Int × S3RangedStream × List UInt8) : Prop :=
  let n := min readSize (object.length - delivered)
  ∃ s', r = (.ok n, s', copyInto b offset ((object.drop delivered).take n)) ∧
    Handed object B s' (delivered + n)

/-- Before the copy of a pass: the buffer is filled if it was empty. -/
theorem fill_objectClient {s : S3RangedStream} {delivered : Nat}
    (hs : Handed object B s delivered) (hB : 0 < B) (hlt : delivered < object.length) :
    ∃ s', (if s.availableBufferSize = 0 then requestHttpData (objectClient object) s
        else (.ok (), s)) = (.ok (), s') ∧
      Handed object B s' delivered ∧ 0 < s'.availableBufferSize := by
  by_cases hempty : s.availableBufferSize = 0
  · rw [if_pos hempty]
    exact requestHttpData_objectClient hs hB hempty hlt
  · rw [if_neg hempty]
    exact ⟨s, rfl, hs, Nat.pos_of_ne_zero hempty⟩

/-- Every pass of the loop either leaves it with the next bytes, or copies
at least one byte and keeps the invariant. -/
theorem readStep_progress (hB : 0 < B) (delivered : Nat) (b : List UInt8) (offset readSize : Nat) :
    Loop.Progress (readStep (objectClient object)) (LoopInv object B delivered b offset readSize)
      (ReadsNext object B delivered b offset readSize) ReadLoop.readSize := by
  rintro ⟨stream, b', offset', readSize', current⟩ ⟨hs, hoffset, hsize, hb', hbound⟩
  dsimp only at hs hoffset hsize hb'
  by_cases hgo : 0 < readSize' ∧ stream.hasNext = true
  · right
    have hlt : delivered + current < object.length := hs.hasNext_iff.mp hgo.2
    obtain ⟨s₁, hfill, hs₁, hpos⟩ := fill_objectClient hs hB hlt
    have hfetched := hs₁.fetched
    have hle := hs₁.offset_le
    -- the pass copies `c` bytes, at least one
    have hc : 0 < min readSize' s₁.availableBufferSize := Nat.lt_min.mpr ⟨hgo.1, hpos⟩
    have hlength : b'.length = b.length := by
      rw [hb']
      exact length_copyInto (by simp; omega)
    obtain ⟨buffer, buffer', hbuf, hget, hs₂⟩ :=
      @Handed.copy object B s₁ (delivered + current) (min readSize' s₁.availableBufferSize) hs₁ hc
        (Nat.min_le_right _ _) b' offset' (by omega)
    refine ⟨⟨{ s₁ with
        buffer := some buffer'
        availableBufferSize := s₁.availableBufferSize - min readSize' s₁.availableBufferSize },
      copyInto b' offset' ((object.drop (delivered + current)).take
        (min readSize' s₁.availableBufferSize)),
      offset' + min readSize' s₁.availableBufferSize, readSize' - min readSize' s₁.availableBufferSize,
      current + min readSize' s₁.availableBufferSize⟩, ?_, ⟨?_, ?_, ?_, ?_, hbound⟩, ?_⟩
    · rw [readStep, if_pos hgo]
      simp only [hfill, hbuf, hget]
    · rw [← Nat.add_assoc]
      exact hs₂
    · dsimp only
      omega
    · dsimp only
      omega
    · have hcurrent : ((object.drop delivered).take current).length = current := by
        simp
        omega
      have hcopy := @copyInto_copyInto _ b offset ((object.drop delivered).take current)
        ((object.drop (delivered + current)).take (min readSize' s₁.availableBufferSize))
        (by simp only [hcurrent, List.length_take]; omega)
      rw [hcurrent] at hcopy
      dsimp only
      rw [hb', hoffset, hcopy, ← List.drop_drop, ← List.take_add]
    · dsimp only
      omega
  · left
    have hfetched := hs.fetched
    have hle := hs.offset_le
    -- the loop stops with everything asked for, or with the whole object
    have hcurrent : current = min readSize (object.length - delivered) := by
      by_cases hsize0 : readSize' = 0
      · omega
      · have hend : ¬ stream.hasNext = true := fun h => hgo ⟨Nat.pos_of_ne_zero hsize0, h⟩
        rw [hs.hasNext_iff] at hend
        omega
    refine ⟨(.ok current, stream, b'), ?_, stream, ?_, ?_⟩
    · rw [readStep, if_neg hgo]
    · rw [hb', ← hcurrent]
    · rw [← hcurrent]
      exact hs

/-- `read(b, offset, readSize)` within the bounds of `b` puts the next bytes
of the object into `b` at `offset`, as many as asked for and left, and
returns their count; it returns `-1` when the whole object was handed out. -/
theorem read_objectClient {s : S3RangedStream} {delivered : Nat} (hs : Handed object B s delivered)
    (hB : 0 < B) (b : List UInt8) (offset readSize : Nat) (hb : offset + readSize ≤ b.length) :
    ∃ s', read (objectClient object) s b offset readSize =
        some (.ok (if delivered = object.length then -1
            else ((min readSize (object.length - delivered) : Nat) : Int)),
          s', copyInto b offset ((object.drop delivered).take (min readSize (object.length - delivered)))) ∧
      Handed object B s' (delivered + min readSize (object.length - delivered)) := by
  have hfetched := hs.fetched
  have hle := hs.offset_le
  by_cases hdone : delivered = object.length
  · have hend : s.hasNext = false := by
      cases h : s.hasNext
      · rfl
      · have := hs.hasNext_iff.mp h
        omega
    have hzero : min readSize (object.length - delivered) = 0 := by omega
    refine ⟨s, ?_, by rw [hzero]; exact hs⟩
    rw [read, hend, Bool.not_false, if_pos rfl, if_pos hdone, hzero, List.take_zero, copyInto_nil]
  · have hnext : s.hasNext = true := hs.hasNext_iff.mpr (by omega)
    have hinit : LoopInv object B delivered b offset readSize ⟨s, b, offset, readSize, 0⟩ :=
      ⟨hs, rfl, Nat.zero_add _, by rw [List.take_zero, copyInto_nil], hb⟩
    obtain ⟨r, hrun, s', hr, hs'⟩ :=
      Loop.run_of_progress (readStep_progress hB delivered b offset readSize) hinit
        (Nat.lt_succ_self readSize)
    refine ⟨s', ?_, hs'⟩
    rw [read, hnext, Bool.not_true, if_neg Bool.false_ne_true, hrun, hr, if_neg hdone]

theorem take_min_length (object : List UInt8) (delivered k : Nat) :
    (object.drop delivered).take (min k (object.length - delivered)) = (object.drop delivered).take k := by
  rw [List.take_eq_take_iff, List.length_drop]
  omega

/-- The ideal stream hands out as many bytes as asked for and left. -/
theorem length_idealAnswer (call : ReadCall) (delivered : Nat) :
    (idealAnswer object delivered call).2.length = min call.size (object.length - delivered) := by
  unfold idealAnswer
  split
  · simp only [List.length_nil]
    omega
  · cases call <;> simp

/-- `read(b, offset, readSize)` hands out what the ideal stream does. -/
theorem readCall_readRange_objectClient {s : S3RangedStream} {delivered : Nat}
    (hs : Handed object B s delivered) (hB : 0 < B) (b : List UInt8) (offset readSize : Nat)
    (hb : offset + readSize ≤ b.length) :
    ∃ s', readCall (objectClient object) s (.readRange b offset readSize) =
        some (.ok (idealAnswer object delivered (.readRange b offset readSize)), s') ∧
      Handed object B s' (delivered + (idealAnswer object delivered (.readRange b offset readSize)).2.length) := by
  obtain ⟨s', hread, hs'⟩ := read_objectClient hs hB b offset readSize hb
  refine ⟨s', ?_, by rw [length_idealAnswer]; exact hs'⟩
  rw [readCall, hread]
  by_cases hdone : delivered = object.length
  · simp [hdone, idealAnswer, Except.map]
  · -- the bytes at `offset` of the array are the ones `read` put there
    have hlength : ((object.drop delivered).take (min readSize (object.length - delivered))).length =
        min readSize (object.length - delivered) := by simp
    have hslice := @copyInto_slice _ b offset
      ((object.drop delivered).take (min readSize (object.length - delivered))) (by omega)
    rw [hlength] at hslice
    simp only [hdone, if_false, Option.map_some, Except.map, Int.toNat_natCast]
    rw [hslice, take_min_length]
    simp [idealAnswer, hdone, ReadCall.size]

/-- Each call of a reader gets the answer of the ideal stream. -/
theorem readCall_objectClient {s : S3RangedStream} {delivered : Nat}
    (hs : Handed object B s delivered) (hB : 0 < B) (call : ReadCall) (hvalid : call.Valid) :
    ∃ s', readCall (objectClient object) s call = some (.ok (idealAnswer object delivered call), s') ∧
      Handed object B s' (delivered + (idealAnswer object delivered call).2.length) := by
  have hle : delivered ≤ object.length := by
    have := hs.fetched
    have := hs.offset_le
    omega
  cases call with
  | read =>
    obtain ⟨s', hread, hs'⟩ := read_objectClient hs hB [0] 0 1 (by decide)
    refine ⟨s', ?_, ?_⟩
    · rw [readCall, readByte, hread]
      by_cases hdone : delivered = object.length
      · simp [hdone, idealAnswer, Except.map]
      · obtain ⟨x, rest, hx⟩ : ∃ x rest, object.drop delivered = x :: rest := by
          cases h : object.drop delivered with
          | nil => simp at h; omega
          | cons x rest => exact ⟨x, rest, rfl⟩
        have hone : min 1 (object.length - delivered) = 1 := by omega
        have hne : ((x.toNat : Nat) : Int) ≠ -1 := by omega
        simp [hdone, idealAnswer, hone, hx, copyInto, ReadCall.size, Except.map, hne]
    · rw [length_idealAnswer]
      exact hs'
  | readArray b =>
    have hcall : readCall (objectClient object) s (.readArray b) =
        readCall (objectClient object) s (.readRange b 0 b.length) := by
      simp [readCall, readArray]
    have hideal : idealAnswer object delivered (.readArray b) =
        idealAnswer object delivered (.readRange b 0 b.length) := by
      simp [idealAnswer, ReadCall.size]
    rw [hcall, hideal]
    exact readCall_readRange_objectClient hs hB b 0 b.length (by simp)
  | readRange b offset readSize => exact readCall_readRange_objectClient hs hB b offset readSize hvalid

/-- A session of calls within their arrays gets the ideal stream's answers. -/
theorem session_objectClient (hB : 0 < B) (calls : List ReadCall) {s : S3RangedStream}
    {delivered : Nat} (hs : Handed object B s delivered) (hvalid : ∀ call ∈ calls, call.Valid) :
    ∃ s', session (objectClient object) s calls = some (.ok (idealSession object delivered calls), s') := by
  induction calls generalizing s delivered with
  | nil => exact ⟨s, rfl⟩
  | cons call calls ih =>
    obtain ⟨s₁, hcall, hs₁⟩ := readCall_objectClient hs hB call (hvalid call List.mem_cons_self)
    obtain ⟨s₂, hrest⟩ := ih hs₁ (fun c hc => hvalid c (List.mem_cons_of_mem _ hc))
    refine ⟨s₂, ?_⟩
    rw [session, hcall]
    simp only [hrest, Option.map_some, Except.map, idealSession]

example : ((session (objectClient [7, 8, 9]) (new 2)
    [.read, .readRange [0, 0, 0] 1 2, .readArray [0, 0], .read]).map Prod.fst) =
      some (.ok [(7, [7]), (2, [8, 9]), (-1, []), (-1, [])]) := by
  decide

/-- Over an object of at least one byte and with a buffer of at least one
byte, every session of calls within their arrays hands out the object in
order: what the calls got is a prefix of the object; a call gets `-1`
exactly when everything was handed out before it, and a call that asks for
bytes while some are left gets at least one, and an array call returns
their count. -/
theorem s3RangedStream_reads_object_in_order (object : List UInt8) (B : Nat)
    (calls : List ReadCall) (hL : 0 < object.length) (hB : 0 < B)
    (hvalid : ∀ call ∈ calls, call.Valid) :
    ∃ answers s', session (objectClient object) (new B) calls = some (.ok answers, s') ∧
      (answers.map Prod.snd).flatten <+: object ∧
      ∀ i call answer, calls[i]? = some call → answers[i]? = some answer →
        (answer.1 = -1 ↔ ((answers.take i).map Prod.snd).flatten.length = object.length) ∧
        (0 < call.size → ((answers.take i).map Prod.snd).flatten.length < object.length →
          0 < answer.2.length ∧ (call = .read ∨ answer.1 = answer.2.length)) := by
  obtain ⟨s', hsession⟩ := session_objectClient hB calls (handed_new hL) hvalid
  refine ⟨idealSession object 0 calls, s', hsession, ?_, ?_⟩
  · simpa using flatten_idealSession_prefix object calls 0
  · intro i call answer hcall hanswer
    have hideal := idealSession_getElem? object calls 0 i call answer hcall hanswer
    rw [Nat.zero_add] at hideal
    subst hideal
    exact ⟨idealAnswer_eq_neg_one_iff _ _ _, fun hsize hlt => idealAnswer_pos object hsize hlt⟩

theorem s3RangedStream_reads_object_in_order_three_bytes :
    ∃ answers s', session (objectClient [7, 8, 9]) (new 2)
        [.read, .readRange [0, 0, 0] 1 2, .readArray [0, 0], .read] = some (.ok answers, s') ∧
      (answers.map Prod.snd).flatten <+: [7, 8, 9] ∧
      ∀ i call answer, [ReadCall.read, .readRange [0, 0, 0] 1 2, .readArray [0, 0], .read][i]? = some call →
        answers[i]? = some answer →
        (answer.1 = -1 ↔ ((answers.take i).map Prod.snd).flatten.length = [7, 8, 9].length) ∧
        (0 < call.size → ((answers.take i).map Prod.snd).flatten.length < [7, 8, 9].length →
          0 < answer.2.length ∧ (call = .read ∨ answer.1 = answer.2.length)) :=
  s3RangedStream_reads_object_in_order [7, 8, 9] 2 _ (by decide) (by decide) (by decide)

end S3RangedStream

end ControlPlane.Blob
