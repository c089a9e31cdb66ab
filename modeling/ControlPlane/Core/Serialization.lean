import ControlPlane.Core.Common
import ControlPlane.Lib.Memory

/-!
# Serialization of numbers, `Uuid`, `Version` and protobuf messages

`Serialization` (src/cc/core/common/serialization) copies a value to or from
a `BytesBuffer` at an offset: an integral `T` is `sizeof(T)` bytes, least
significant first; `Uuid` and `Version` are two `uint64_t` one after the
other; a message is a `uint64_t` size header followed by that many bytes of
its wire format. Each copy is guarded by a comparison of `size_t` values,
`offset + size > bound`, computed modulo 2^64.

The guards are bounds only as long as the sum does not wrap: a success
leaves the copied range inside the buffer or comes from a sum of at least
2^64 (`deserialize_bounds`, `deserializeMessage_bounds`). The size header
comes from the buffer, so a header near 2^64 wraps the message guard.

## Implementation notes

`size_t` and `uint64_t` are `UInt64`. The buffer's bytes are a function of
the index, read and written as `Memory` cells; a pointer `data + i` is the
index `i`. `ParseFromArray` is the message type's own and is taken as given.
-/

namespace ControlPlane.Core

open Memory

def scSerialization : Nat := 0x000B

def scSerializationBufferNotWritable : StatusCode := makeErrorCode scSerialization 0x0001

def scSerializationBufferNotReadable : StatusCode := makeErrorCode scSerialization 0x0002

def scSerializationProtoDeserializationFailed : StatusCode :=
  makeErrorCode scSerialization 0x0004

/-- The bytes a buffer holds, the length of them to consume and the number
of them that can be written. -/
structure BytesBuffer where
  bytes : Nat → UInt8
  length : UInt64
  capacity : UInt64

structure Uuid where
  high : UInt64
  low : UInt64
  deriving DecidableEq, Repr

structure Version where
  major : UInt64
  minor : UInt64
  deriving DecidableEq, Repr

/-- An integral type as `memcpy` copies it: `sizeof(T)` bytes, least
significant first. -/
class Integral (T : Type) where
  size : Nat
  toNat : T → Nat
  ofNat : Nat → T
  size_le : size ≤ 8
  toNat_lt : ∀ v, toNat v < 256 ^ size
  ofNat_toNat : ∀ v, ofNat (toNat v) = v

instance : Integral UInt8 :=
  ⟨1, UInt8.toNat, UInt8.ofNat, by decide, UInt8.toNat_lt, fun _ => UInt8.ofNat_toNat⟩

instance : Integral UInt16 :=
  ⟨2, UInt16.toNat, UInt16.ofNat, by decide, UInt16.toNat_lt, fun _ => UInt16.ofNat_toNat⟩

instance : Integral UInt32 :=
  ⟨4, UInt32.toNat, UInt32.ofNat, by decide, UInt32.toNat_lt, fun _ => UInt32.ofNat_toNat⟩

instance : Integral UInt64 :=
  ⟨8, UInt64.toNat, UInt64.ofNat, by decide, UInt64.toNat_lt, fun _ => UInt64.ofNat_toNat⟩

/-- `ParseFromArray` of a message type, given the memory, the index of the
first byte and the `int` size it is called with. Zero bytes parse: they
are the wire format of the message whose fields all hold their defaults. -/
structure ProtoParser (M : Type) where
  parseFromArray : (Nat → UInt8) → Nat → Int32 → Option M
  parse_empty : ∀ mem start, (parseFromArray mem start 0).isSome

namespace Serialization

variable {T M : Type}

/-- `Serialize<T>`: the result, the buffer and `bytes_serialized`. -/
def serialize [Integral T] (bytesBuffer : BytesBuffer) (bufferOffset : UInt64)
    (valueToSerialize : T) : ExecutionResult × BytesBuffer × UInt64 :=
  let sizeOfObjectInBytes : UInt64 := (@Integral.size T _).toUInt64
  if bufferOffset + sizeOfObjectInBytes > bytesBuffer.capacity then
    (failureExecutionResult scSerializationBufferNotWritable, bytesBuffer, 0)
  else
    (successExecutionResult,
      { bytesBuffer with
        bytes := write bytesBuffer.bytes bufferOffset.toNat
          (bytes (@Integral.size T _) (Integral.toNat valueToSerialize)) },
      sizeOfObjectInBytes)

/-- `Deserialize<T>`: the result, the value and `bytes_deserialized`. -/
def deserialize [Integral T] (bytesBuffer : BytesBuffer) (bufferOffset : UInt64)
    (valueToDeserialize : T) : ExecutionResult × T × UInt64 :=
  let sizeOfObjectInBytes : UInt64 := (@Integral.size T _).toUInt64
  if bufferOffset + sizeOfObjectInBytes > bytesBuffer.length then
    (failureExecutionResult scSerializationBufferNotReadable, valueToDeserialize, 0)
  else
    (successExecutionResult,
      Integral.ofNat (value (read bytesBuffer.bytes bufferOffset.toNat (@Integral.size T _))),
      sizeOfObjectInBytes)

/-- `Serialize` of two `uint64_t` fields after a guard of their own, as the
specializations for `Uuid` and `Version` do. -/
def serializePair (bytesBuffer : BytesBuffer) (bufferOffset : UInt64) (first second : UInt64) :
    ExecutionResult × BytesBuffer × UInt64 :=
  let sizeOfObjectInBytes : UInt64 := 2 * 8
  if bufferOffset + sizeOfObjectInBytes > bytesBuffer.capacity then
    (failureExecutionResult scSerializationBufferNotWritable, bytesBuffer, 0)
  else
    let (r₁, bytesBuffer, n₁) := serialize bytesBuffer bufferOffset first
    if !r₁.successful then (r₁, bytesBuffer, n₁)
    else
      let (r₂, bytesBuffer, n₂) := serialize bytesBuffer (bufferOffset + n₁) second
      if !r₂.successful then (r₂, bytesBuffer, n₂)
      else (successExecutionResult, bytesBuffer, sizeOfObjectInBytes)

/-- `Deserialize` of two `uint64_t` fields after a guard of their own. -/
def deserializePair (bytesBuffer : BytesBuffer) (bufferOffset : UInt64) (first second : UInt64) :
    ExecutionResult × (UInt64 × UInt64) × UInt64 :=
  let sizeOfObjectInBytes : UInt64 := 2 * 8
  if bufferOffset + sizeOfObjectInBytes > bytesBuffer.length then
    (failureExecutionResult scSerializationBufferNotReadable, (first, second), 0)
  else
    let (r₁, first, n₁) := deserialize bytesBuffer bufferOffset first
    if !r₁.successful then (r₁, (first, second), n₁)
    else
      let (r₂, second, n₂) := deserialize bytesBuffer (bufferOffset + n₁) second
      if !r₂.successful then (r₂, (first, second), n₂)
      else (successExecutionResult, (first, second), sizeOfObjectInBytes)

def serializeUuid (bytesBuffer : BytesBuffer) (bufferOffset : UInt64) (valueToSerialize : Uuid) :
    ExecutionResult × BytesBuffer × UInt64 :=
  serializePair bytesBuffer bufferOffset valueToSerialize.high valueToSerialize.low

def deserializeUuid (bytesBuffer : BytesBuffer) (bufferOffset : UInt64)
    (valueToDeserialize : Uuid) : ExecutionResult × Uuid × UInt64 :=
  let (r, (high, low), n) :=
    deserializePair bytesBuffer bufferOffset valueToDeserialize.high valueToDeserialize.low
  (r, ⟨high, low⟩, n)

def serializeVersion (bytesBuffer : BytesBuffer) (bufferOffset : UInt64)
    (valueToSerialize : Version) : ExecutionResult × BytesBuffer × UInt64 :=
  serializePair bytesBuffer bufferOffset valueToSerialize.major valueToSerialize.minor

def deserializeVersion (bytesBuffer : BytesBuffer) (bufferOffset : UInt64)
    (valueToDeserialize : Version) : ExecutionResult × Version × UInt64 :=
  let (r, (major, minor), n) :=
    deserializePair bytesBuffer bufferOffset valueToDeserialize.major valueToDeserialize.minor
  (r, ⟨major, minor⟩, n)

/-- `Deserialize<google::protobuf::Message>`: the size header, then the
message in the bytes after it. A header of 0 leaves the message as it was;
a failure after the header keeps its 8 bytes in `bytes_deserialized`. -/
def deserializeMessage (proto : ProtoParser M) (bytesBuffer : BytesBuffer)
    (bufferOffset : UInt64) (valueToDeserialize : M) : ExecutionResult × M × UInt64 :=
  let sizeOfObjectSizeBlock : UInt64 := 8
  if bufferOffset + sizeOfObjectSizeBlock > bytesBuffer.length then
    (failureExecutionResult scSerializationBufferNotReadable, valueToDeserialize, 0)
  else
    let (r, sizeOfSerializedProto, bytesDeserialized) :=
      deserialize bytesBuffer bufferOffset (0 : UInt64)
    if !r.successful then (r, valueToDeserialize, bytesDeserialized)
    else if bufferOffset + sizeOfObjectSizeBlock + sizeOfSerializedProto > bytesBuffer.length then
      (failureExecutionResult scSerializationBufferNotReadable, valueToDeserialize,
        bytesDeserialized)
    else if sizeOfSerializedProto ≠ 0 then
      -- `ParseFromArray` takes an `int` size: the header's low 32 bits
      match proto.parseFromArray bytesBuffer.bytes (bufferOffset.toNat + bytesDeserialized.toNat)
          sizeOfSerializedProto.toUInt32.toInt32 with
      | none =>
          (failureExecutionResult scSerializationProtoDeserializationFailed, valueToDeserialize,
            bytesDeserialized)
      | some message => (successExecutionResult, message, sizeOfObjectSizeBlock + sizeOfSerializedProto)
    else (successExecutionResult, valueToDeserialize, sizeOfObjectSizeBlock + sizeOfSerializedProto)

/-! ## The guards -/

theorem failure_pair_ne_success {α : Type} (statusCode : StatusCode) (x y : α) :
    (failureExecutionResult statusCode, x) ≠ (successExecutionResult, y) :=
  fun h => failureExecutionResult_ne_success statusCode (Prod.mk.inj h).1

/-- A `size_t` guard `a + b > c` lets through the sums that, taken modulo
2^64, are at most `c`: the bound as unbounded integers, or a sum that
wraps. -/
theorem bound_of_guard {a b c : UInt64} (h : ¬ a + b > c) :
    a.toNat + b.toNat ≤ c.toNat ∨ 2 ^ 64 ≤ a.toNat + b.toNat := by
  rw [gt_iff_lt, UInt64.lt_iff_toNat_lt, UInt64.toNat_add, Nat.not_lt] at h
  by_cases hw : a.toNat + b.toNat < 2 ^ 64
  · rw [Nat.mod_eq_of_lt hw] at h
    exact .inl h
  · exact .inr (Nat.le_of_not_lt hw)

/-- A sum within the bound as unbounded integers passes the guard. -/
theorem not_gt_of_le {a b c : UInt64} (h : a.toNat + b.toNat ≤ c.toNat) : ¬ a + b > c := by
  have hc := c.toNat_lt
  rw [gt_iff_lt, UInt64.lt_iff_toNat_lt, UInt64.toNat_add, Nat.not_lt,
    Nat.mod_eq_of_lt (by omega)]
  exact h

theorem toNat_size [Integral T] : ((@Integral.size T _).toUInt64).toNat = @Integral.size T _ := by
  have := @Integral.size_le T _
  simp only [Nat.toUInt64, UInt64.toNat_ofNat']
  omega

/-! ## Numbers -/

section Integral

variable [Integral T] {bytesBuffer : BytesBuffer} {bufferOffset : UInt64}

theorem deserialize_of_gt (v : T)
    (h : bufferOffset + (@Integral.size T _).toUInt64 > bytesBuffer.length) :
    deserialize bytesBuffer bufferOffset v =
      (failureExecutionResult scSerializationBufferNotReadable, v, 0) := if_pos h

theorem deserialize_of_not_gt (v : T)
    (h : ¬ bufferOffset + (@Integral.size T _).toUInt64 > bytesBuffer.length) :
    deserialize bytesBuffer bufferOffset v =
      (successExecutionResult,
        Integral.ofNat (value (read bytesBuffer.bytes bufferOffset.toNat (@Integral.size T _))),
        (@Integral.size T _).toUInt64) := if_neg h

/-- A `Deserialize<T>` that succeeds read `sizeof(T)` bytes that lie in the
buffer, or its guard wrapped. -/
theorem deserialize_bounds {v : T}
    (h : (deserialize bytesBuffer bufferOffset v).1 = successExecutionResult) :
    bufferOffset.toNat + @Integral.size T _ ≤ bytesBuffer.length.toNat ∨
      2 ^ 64 ≤ bufferOffset.toNat + @Integral.size T _ := by
  by_cases hg : bufferOffset + (@Integral.size T _).toUInt64 > bytesBuffer.length
  · rw [deserialize_of_gt v hg] at h
    cases h
  · simpa only [toNat_size] using bound_of_guard hg

theorem serialize_of_gt (v : T)
    (h : bufferOffset + (@Integral.size T _).toUInt64 > bytesBuffer.capacity) :
    serialize bytesBuffer bufferOffset v =
      (failureExecutionResult scSerializationBufferNotWritable, bytesBuffer, 0) := if_pos h

theorem serialize_of_not_gt (v : T)
    (h : ¬ bufferOffset + (@Integral.size T _).toUInt64 > bytesBuffer.capacity) :
    serialize bytesBuffer bufferOffset v =
      (successExecutionResult,
        { bytesBuffer with
          bytes := write bytesBuffer.bytes bufferOffset.toNat
            (bytes (@Integral.size T _) (Integral.toNat v)) },
        (@Integral.size T _).toUInt64) := if_neg h

/-- The bytes of `v` spell `v` back. -/
theorem ofNat_value_bytes (v : T) :
    (Integral.ofNat (value (bytes (@Integral.size T _) (Integral.toNat v))) : T) = v := by
  rw [value_bytes, Nat.mod_eq_of_lt (Integral.toNat_lt v), Integral.ofNat_toNat]

/-- What `Serialize<T>` wrote, `Deserialize<T>` reads back at the same
offset, counting the same bytes, when those bytes lie within the length. -/
theorem deserialize_serialize {v w : T} {bytesBuffer' : BytesBuffer} {n : UInt64}
    (h : serialize bytesBuffer bufferOffset v = (successExecutionResult, bytesBuffer', n))
    (hlen : bufferOffset.toNat + @Integral.size T _ ≤ bytesBuffer'.length.toNat) :
    deserialize bytesBuffer' bufferOffset w = (successExecutionResult, v, n) := by
  by_cases hg : bufferOffset + (@Integral.size T _).toUInt64 > bytesBuffer.capacity
  · rw [serialize_of_gt v hg] at h
    exact absurd h (failure_pair_ne_success _ _ _)
  · rw [serialize_of_not_gt v hg] at h
    obtain ⟨rfl, rfl⟩ := Prod.mk.inj (Prod.mk.inj h).2
    have hread := read_write_self bytesBuffer.bytes bufferOffset.toNat
      (bytes (@Integral.size T _) (Integral.toNat v))
    rw [length_bytes] at hread
    rw [deserialize_of_not_gt w (not_gt_of_le (by rw [toNat_size]; exact hlen))]
    simp only [hread, ofNat_value_bytes]

end Integral

/-- `Deserialize<uint64_t>` at offset 2^64 - 1 of any buffer of at least 7
bytes: the guard's sum wraps to 7 and the read is let through, although the
offset and the 8 bytes overrun the length. -/
theorem deserialize_accepts_wrapped_offset (bytesBuffer : BytesBuffer) (v : UInt64)
    (h : 7 ≤ bytesBuffer.length.toNat) :
    (deserialize bytesBuffer 0xFFFFFFFFFFFFFFFF v).1 = successExecutionResult ∧
      bytesBuffer.length.toNat < (0xFFFFFFFFFFFFFFFF : UInt64).toNat + 8 := by
  have hguard : ¬ (0xFFFFFFFFFFFFFFFF : UInt64) + (@Integral.size UInt64 _).toUInt64 >
      bytesBuffer.length := by
    rw [gt_iff_lt, UInt64.lt_iff_toNat_lt, Nat.not_lt]
    exact h
  rw [deserialize_of_not_gt v hguard]
  exact ⟨rfl, Nat.lt_of_lt_of_le bytesBuffer.length.toNat_lt (by decide)⟩

/-! ## `Uuid` and `Version` -/

section Pair

variable {bytesBuffer : BytesBuffer} {bufferOffset : UInt64}

theorem toNat_add_eight (offset : UInt64) (h : offset.toNat + 8 < 2 ^ 64) :
    (offset + 8).toNat = offset.toNat + 8 := by
  rw [UInt64.toNat_add, UInt64.toNat_ofNat, Nat.mod_eq_of_lt h]

/-- The number a `uint64_t` field holds, read back from its bytes. -/
theorem ofNat_value_bytes_eight (v : UInt64) : UInt64.ofNat (value (bytes 8 v.toNat)) = v :=
  @ofNat_value_bytes UInt64 _ v

/-- With both fields inside the length, `Deserialize` of a pair reads the
numbers at the offset and 8 bytes after it. -/
theorem deserializePair_of_le (first second : UInt64)
    (h : bufferOffset.toNat + 16 ≤ bytesBuffer.length.toNat) :
    deserializePair bytesBuffer bufferOffset first second =
      (successExecutionResult,
        (UInt64.ofNat (value (read bytesBuffer.bytes bufferOffset.toNat 8)),
          UInt64.ofNat (value (read bytesBuffer.bytes (bufferOffset.toNat + 8) 8))), 16) := by
  have hlen := bytesBuffer.length.toNat_lt
  have hoff := toNat_add_eight bufferOffset (by omega)
  have h8 : (@Integral.size UInt64 _).toUInt64 = 8 := rfl
  have hs : @Integral.size UInt64 _ = 8 := rfl
  have hg₁ : ¬ bufferOffset + 8 > bytesBuffer.length :=
    not_gt_of_le (by rw [show (8 : UInt64).toNat = 8 from rfl]; omega)
  have hg₂ : ¬ bufferOffset + 8 + 8 > bytesBuffer.length := not_gt_of_le (by rw [hoff]; exact h)
  unfold deserializePair
  rw [if_neg (not_gt_of_le h), deserialize_of_not_gt first hg₁]
  dsimp only
  rw [h8, hs, successExecutionResult_successful, Bool.not_true, if_neg Bool.false_ne_true,
    deserialize_of_not_gt second hg₂]
  dsimp only
  rw [successExecutionResult_successful, Bool.not_true, if_neg Bool.false_ne_true, hoff]
  rfl

/-- A `Deserialize` of a pair that succeeds read 16 bytes inside the
length, or its guard wrapped. -/
theorem deserializePair_bounds {first second : UInt64}
    (h : (deserializePair bytesBuffer bufferOffset first second).1 = successExecutionResult) :
    bufferOffset.toNat + 16 ≤ bytesBuffer.length.toNat ∨ 2 ^ 64 ≤ bufferOffset.toNat + 16 := by
  by_cases hg : bufferOffset + 2 * 8 > bytesBuffer.length
  · unfold deserializePair at h
    rw [if_pos hg] at h
    exact absurd h (failureExecutionResult_ne_success _)
  · exact bound_of_guard hg

/-- With both fields inside the capacity, `Serialize` of a pair writes the
bytes of the first at the offset and of the second 8 bytes after it. -/
theorem serializePair_of_le (first second : UInt64)
    (h : bufferOffset.toNat + 16 ≤ bytesBuffer.capacity.toNat) :
    serializePair bytesBuffer bufferOffset first second =
      (successExecutionResult,
        { bytesBuffer with
          bytes := write (write bytesBuffer.bytes bufferOffset.toNat (bytes 8 first.toNat))
            (bufferOffset.toNat + 8) (bytes 8 second.toNat) }, 16) := by
  have hcap := bytesBuffer.capacity.toNat_lt
  have hoff := toNat_add_eight bufferOffset (by omega)
  have h8 : (@Integral.size UInt64 _).toUInt64 = 8 := rfl
  have hs : @Integral.size UInt64 _ = 8 := rfl
  have hg₁ : ¬ bufferOffset + 8 > bytesBuffer.capacity :=
    not_gt_of_le (by rw [show (8 : UInt64).toNat = 8 from rfl]; omega)
  unfold serializePair
  rw [if_neg (not_gt_of_le h), serialize_of_not_gt first hg₁]
  dsimp only
  rw [h8, hs, successExecutionResult_successful, Bool.not_true, if_neg Bool.false_ne_true]
  -- the second field goes to the buffer the first one was written to
  generalize hb : { bytesBuffer with
    bytes := write bytesBuffer.bytes bufferOffset.toNat (bytes 8 (Integral.toNat first)) } = b₁
  have hg₂ : ¬ bufferOffset + 8 + 8 > b₁.capacity := by
    rw [← hb]
    exact not_gt_of_le (by rw [hoff]; exact h)
  rw [serialize_of_not_gt second hg₂]
  dsimp only
  rw [successExecutionResult_successful, Bool.not_true, if_neg Bool.false_ne_true, hoff, ← hb]
  rfl

/-- What `Serialize` of a pair wrote, `Deserialize` of a pair reads back at
the same offset when the 16 bytes lie within the length. -/
theorem deserializePair_serializePair {first second first' second' : UInt64}
    {bytesBuffer' : BytesBuffer} {n : UInt64}
    (h : serializePair bytesBuffer bufferOffset first second =
      (successExecutionResult, bytesBuffer', n))
    (hlen : bufferOffset.toNat + 16 ≤ bytesBuffer'.length.toNat) :
    deserializePair bytesBuffer' bufferOffset first' second' =
      (successExecutionResult, (first, second), n) := by
  have hlen' := bytesBuffer'.length.toNat_lt
  by_cases hcap : bufferOffset.toNat + 16 ≤ bytesBuffer.capacity.toNat
  · rw [serializePair_of_le first second hcap] at h
    obtain ⟨rfl, rfl⟩ := Prod.mk.inj (Prod.mk.inj h).2
    rw [deserializePair_of_le first' second' hlen]
    -- the first field's bytes end where the second's begin
    have hfirst := read_write_self bytesBuffer.bytes bufferOffset.toNat (bytes 8 first.toNat)
    have hsecond := read_write_self (write bytesBuffer.bytes bufferOffset.toNat
      (bytes 8 first.toNat)) (bufferOffset.toNat + 8) (bytes 8 second.toNat)
    rw [length_bytes] at hfirst hsecond
    simp only [read_write_of_le (bytes 8 second.toNat) (Nat.le_refl _), hfirst, hsecond,
      ofNat_value_bytes_eight]
  · -- the guard sees the sum below 2^64, beyond the capacity
    have hg : bufferOffset + 2 * 8 > bytesBuffer.capacity := by
      rw [gt_iff_lt, UInt64.lt_iff_toNat_lt, UInt64.toNat_add, Nat.mod_eq_of_lt (by
        simp only [UInt64.toNat_mul, UInt64.toNat_ofNat]; omega)]
      simp only [UInt64.toNat_mul, UInt64.toNat_ofNat]
      omega
    unfold serializePair at h
    rw [if_pos hg] at h
    exact absurd h (failure_pair_ne_success _ _ _)

theorem deserializeUuid_serializeUuid {uuid uuid' : Uuid} {bytesBuffer' : BytesBuffer}
    {n : UInt64}
    (h : serializeUuid bytesBuffer bufferOffset uuid = (successExecutionResult, bytesBuffer', n))
    (hlen : bufferOffset.toNat + 16 ≤ bytesBuffer'.length.toNat) :
    deserializeUuid bytesBuffer' bufferOffset uuid' = (successExecutionResult, uuid, n) := by
  unfold deserializeUuid
  rw [deserializePair_serializePair h hlen]

theorem deserializeVersion_serializeVersion {version version' : Version}
    {bytesBuffer' : BytesBuffer} {n : UInt64}
    (h : serializeVersion bytesBuffer bufferOffset version =
      (successExecutionResult, bytesBuffer', n))
    (hlen : bufferOffset.toNat + 16 ≤ bytesBuffer'.length.toNat) :
    deserializeVersion bytesBuffer' bufferOffset version' = (successExecutionResult, version, n) := by
  unfold deserializeVersion
  rw [deserializePair_serializePair h hlen]

end Pair

/-! ## Messages -/

section Message

variable {proto : ProtoParser M} {bytesBuffer : BytesBuffer} {bufferOffset : UInt64}

/-- The size header that `Deserialize<uint64_t>` reads at the offset. -/
theorem deserialize_header (h : ¬ bufferOffset + 8 > bytesBuffer.length) :
    deserialize bytesBuffer bufferOffset (0 : UInt64) =
      (successExecutionResult, UInt64.ofNat (value (read bytesBuffer.bytes bufferOffset.toNat 8)),
        8) :=
  if_neg h

/-- A `Deserialize<Message>` that succeeds passed the guard on the header's
value, and counts the header's 8 bytes and that value. -/
theorem deserializeMessage_eq_success {v v' : M} {n : UInt64}
    (h : deserializeMessage proto bytesBuffer bufferOffset v = (successExecutionResult, v', n)) :
    ¬ bufferOffset + 8 + UInt64.ofNat (value (read bytesBuffer.bytes bufferOffset.toNat 8)) >
        bytesBuffer.length ∧
      n = 8 + UInt64.ofNat (value (read bytesBuffer.bytes bufferOffset.toNat 8)) := by
  unfold deserializeMessage at h
  dsimp only at h
  split at h
  · exact absurd h (failure_pair_ne_success _ _ _)
  · next hg =>
    rw [deserialize_header hg] at h
    generalize UInt64.ofNat (value (read bytesBuffer.bytes bufferOffset.toNat 8)) = hdr at h ⊢
    dsimp only at h
    rw [successExecutionResult_successful, Bool.not_true, if_neg Bool.false_ne_true] at h
    split at h
    · exact absurd h (failure_pair_ne_success _ _ _)
    · next hg₂ =>
      refine ⟨hg₂, ?_⟩
      -- a header of 0 skips the parse; both successes count `8 + header`
      split at h
      · split at h
        · exact absurd h (failure_pair_ne_success _ _ _)
        · exact (Prod.mk.inj (Prod.mk.inj h).2).2.symm
      · exact (Prod.mk.inj (Prod.mk.inj h).2).2.symm

/-- A `Deserialize<Message>` that succeeds read a header and as many bytes
as it says, all inside the buffer, and reports them; or the sum of the
offset, the header's size and the header's value wrapped. -/
theorem deserializeMessage_bounds {v v' : M} {n : UInt64}
    (h : deserializeMessage proto bytesBuffer bufferOffset v = (successExecutionResult, v', n)) :
    (bufferOffset.toNat + 8 +
          (UInt64.ofNat (value (read bytesBuffer.bytes bufferOffset.toNat 8))).toNat ≤
        bytesBuffer.length.toNat ∧
      n.toNat = 8 + (UInt64.ofNat (value (read bytesBuffer.bytes bufferOffset.toNat 8))).toNat) ∨
    2 ^ 64 ≤ bufferOffset.toNat + 8 +
      (UInt64.ofNat (value (read bytesBuffer.bytes bufferOffset.toNat 8))).toNat := by
  obtain ⟨hg, rfl⟩ := deserializeMessage_eq_success h
  generalize UInt64.ofNat (value (read bytesBuffer.bytes bufferOffset.toNat 8)) = hdr at hg ⊢
  have hlen := bytesBuffer.length.toNat_lt
  have h8 : (8 : UInt64).toNat = 8 := rfl
  rcases Nat.lt_or_ge (bufferOffset.toNat + 8) (2 ^ 64) with ho | ho
  · have hoff : (bufferOffset + 8).toNat = bufferOffset.toNat + 8 := by
      rw [UInt64.toNat_add, h8, Nat.mod_eq_of_lt ho]
    rcases bound_of_guard hg with hb | hb
    · -- no wrap: the header's bytes end inside the buffer, and so does their count
      have hn : (8 + hdr).toNat = 8 + hdr.toNat := by
        rw [UInt64.toNat_add, h8]
        exact Nat.mod_eq_of_lt (by omega)
      exact .inl ⟨by omega, hn⟩
    · exact .inr (by omega)
  · exact .inr (by omega)

/-- A buffer of 2^32 + 8 bytes whose last 8 hold the size header
2^64 - 2^32, least significant byte first. -/
def wrappedHeaderBuffer : BytesBuffer :=
  ⟨fun i => if 2 ^ 32 + 4 ≤ i then 0xFF else 0, 2 ^ 32 + 8, 2 ^ 32 + 8⟩

end Message

end Serialization

end ControlPlane.Core
