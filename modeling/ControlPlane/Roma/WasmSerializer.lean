import ControlPlane.Roma.WasmDeserializer

/-!
# Writing strings and lists of strings into WASM memory

`WasmSerializer` (src/cc/roma/wasm/src/serializer.cc) lays a string out at
an offset as its bytes followed by its record, the pointer to the bytes
and their count, and returns the record's offset; a list of strings is its
strings one after the other, then the array of their records' pointers,
then its own record, the pointer to that array and the count. Every
failure returns `UINT32_MAX`. `ComputeMemorySizeFor` (wasm_types.h) is the
room each takes, and `ExecutionUtils::ParseAsWasmInput` lays the arguments
of a call out one after the other from offset 0.

A write succeeds when its room fits the memory, except the empty string at
offset 0, whose check `offset + str_len - 1` wraps; it writes nothing
outside its room, and the reader gives back what was written, except a
string whose first byte is 0, which reads as the empty string.

## Implementation notes

As for the reader, `size_t` is `UInt64`, `uint32_t` is `UInt32` and the
memory is a function of the index. A string is the list of its bytes.
-/

namespace ControlPlane.Roma

open Memory

namespace RomaWasmStringRepresentation

/-- The string's bytes, and 4 for the pointer and 4 for the count. -/
def computeMemorySizeFor (s : List UInt8) : Nat := s.length + 4 + 4

end RomaWasmStringRepresentation

namespace RomaWasmListOfStringRepresentation

/-- The room of each string, 4 for each pointer to a string, and 4 for the
list pointer and 4 for the count. -/
def computeMemorySizeFor (list : List (List UInt8)) : Nat :=
  (list.map RomaWasmStringRepresentation.computeMemorySizeFor).sum + list.length * 4 + (4 + 4)

end RomaWasmListOfStringRepresentation

namespace WasmSerializer

def writeUint8 (mem : Nat → UInt8) (memSize offset : UInt64) (input : UInt8) :
    Bool × (Nat → UInt8) :=
  if offset ≥ memSize then (false, mem) else (true, write mem offset.toNat [input])

def writeUint16 (mem : Nat → UInt8) (memSize offset : UInt64) (input : UInt16) :
    Bool × (Nat → UInt8) :=
  if offset + 1 ≥ memSize then (false, mem)
  else
    let (worked, mem) := writeUint8 mem memSize offset input.toUInt8
    if worked then writeUint8 mem memSize (offset + 1) (input >>> 8).toUInt8 else (false, mem)

def writeUint32 (mem : Nat → UInt8) (memSize offset : UInt64) (input : UInt32) :
    Bool × (Nat → UInt8) :=
  if offset + 3 ≥ memSize then (false, mem)
  else
    let (worked, mem) := writeUint16 mem memSize offset input.toUInt16
    if worked then writeUint16 mem memSize (offset + 2) (input >>> 16).toUInt16 else (false, mem)

/-- The loop of `WriteRawString`: `WriteUint8(local_offset++, str[i])` for
each character, up to the first that fails. -/
def writeRawChars (memSize : UInt64) :
    (Nat → UInt8) → List UInt8 → UInt64 → Bool × (Nat → UInt8)
  | mem, [], _ => (true, mem)
  | mem, c :: cs, localOffset =>
      let (worked, mem) := writeUint8 mem memSize localOffset c
      if worked then writeRawChars memSize mem cs (localOffset + 1) else (false, mem)

def writeRawString (mem : Nat → UInt8) (memSize offset : UInt64) (str : List UInt8)
    (strLen : UInt64) : Bool × (Nat → UInt8) :=
  if offset + strLen - 1 ≥ memSize then (false, mem)
  else writeRawChars memSize mem (str.take strLen.toNat) offset

def writeCustomString (mem : Nat → UInt8) (memSize offset : UInt64) (str : List UInt8) :
    UInt32 × (Nat → UInt8) :=
  let strDataPtr := offset
  let (worked, mem) := writeRawString mem memSize strDataPtr str str.length.toUInt64
  if !worked then (0xFFFFFFFF, mem)
  else
    let structOffset := strDataPtr + str.length.toUInt64
    let (worked, mem) := writeUint32 mem memSize structOffset strDataPtr.toUInt32
    let (worked, mem) :=
      if worked then writeUint32 mem memSize (structOffset + 4) str.length.toUInt32
      else (false, mem)
    if !worked then (0xFFFFFFFF, mem) else (structOffset.toUInt32, mem)

/-- The first loop of `WriteCustomListOfString`: each string at the offset,
which then moves past the string's room; the pointers to their records. -/
def writeStrings (memSize : UInt64) :
    (Nat → UInt8) → List (List UInt8) → UInt64 → List UInt32 →
      Option (List UInt32 × UInt64) × (Nat → UInt8)
  | mem, [], offset, stringPtrs => (some (stringPtrs, offset), mem)
  | mem, str :: rest, offset, stringPtrs =>
      let (strPtr, mem) := writeCustomString mem memSize offset str
      if strPtr = 0xFFFFFFFF then (none, mem)
      else
        writeStrings memSize mem rest
          (offset + (RomaWasmStringRepresentation.computeMemorySizeFor str).toUInt64)
          (stringPtrs ++ [strPtr])

/-- The second loop: the pointers, 4 bytes each. -/
def writePointers (memSize : UInt64) :
    (Nat → UInt8) → List UInt32 → UInt64 → Option UInt64 × (Nat → UInt8)
  | mem, [], offset => (some offset, mem)
  | mem, p :: ps, offset =>
      let (worked, mem) := writeUint32 mem memSize offset p
      if worked then writePointers memSize mem ps (offset + 4) else (none, mem)

def writeCustomListOfString (mem : Nat → UInt8) (memSize offset : UInt64)
    (list : List (List UInt8)) : UInt32 × (Nat → UInt8) :=
  match writeStrings memSize mem list offset [] with
  | (none, mem) => (0xFFFFFFFF, mem)
  | (some (stringPtrs, offset), mem) =>
      let ptrToArrayOfStrPtrs := offset
      match writePointers memSize mem stringPtrs offset with
      | (none, mem) => (0xFFFFFFFF, mem)
      | (some offset, mem) =>
          let structOffset := offset
          -- Write the pointer to the array of string pointers
          let (worked, mem) := writeUint32 mem memSize offset ptrToArrayOfStrPtrs.toUInt32
          -- Write the size of the list
          let (worked, mem) :=
            if worked then writeUint32 mem memSize (offset + 4) stringPtrs.length.toUInt32
            else (false, mem)
          if !worked then (0xFFFFFFFF, mem) else (structOffset.toUInt32, mem)

/-! ## Numbers -/

section Numbers

variable {mem : Nat → UInt8} {memSize : UInt64}

theorem writeUint8_of_lt {offset : UInt64} (h : offset < memSize) (c : UInt8) :
    writeUint8 mem memSize offset c = (true, write mem offset.toNat [c]) :=
  if_neg (UInt64.not_le.mpr h)

theorem writeUint8_of_ge {offset : UInt64} (h : offset ≥ memSize) (c : UInt8) :
    writeUint8 mem memSize offset c = (false, mem) := if_pos h

theorem writeUint8_unchanged (mem : Nat → UInt8) (memSize offset : UInt64) (c : UInt8) :
    Unchanged offset.toNat (offset.toNat + 1) mem (writeUint8 mem memSize offset c).2 := by
  by_cases h : offset ≥ memSize
  · rw [writeUint8_of_ge h]
    exact Unchanged.refl _ _ _
  · rw [writeUint8_of_lt (UInt64.not_le.mp h)]
    exact unchanged_write mem offset.toNat [c]

/-- `(uint8_t)input` and `input >> 8` are the two bytes of a `uint16`. -/
theorem bytes_two_toUInt16 (v : UInt16) : [v.toUInt8, (v >>> 8).toUInt8] = bytes 2 v.toNat := by
  have hv := v.toNat_lt
  simp only [bytes]
  congr 2
  · apply UInt8.toNat_inj.mp
    simp [UInt16.toNat_toUInt8]
  · apply UInt8.toNat_inj.mp
    simp only [UInt16.toNat_toUInt8, UInt16.toNat_shiftRight, Nat.shiftRight_eq_div_pow]
    simp

theorem writeUint16_of_le {offset : UInt64} (h : offset.toNat + 2 ≤ memSize.toNat) (v : UInt16) :
    writeUint16 mem memSize offset v = (true, write mem offset.toNat (bytes 2 v.toNat)) := by
  have hm := memSize.toNat_lt
  have h1 : (offset + 1).toNat = offset.toNat + 1 := WasmDeserializer.toNat_add_of_lt (by simp; omega)
  have hg : ¬ offset + 1 ≥ memSize := by
    rw [ge_iff_le, UInt64.le_iff_toNat_le, h1]
    omega
  rw [writeUint16, if_neg hg, writeUint8_of_lt (UInt64.lt_iff_toNat_lt.mpr (by omega))]
  dsimp only
  rw [if_pos rfl, writeUint8_of_lt (UInt64.lt_iff_toNat_lt.mpr (by omega)), h1,
    ← bytes_two_toUInt16, show [v.toUInt8, (v >>> 8).toUInt8] = [v.toUInt8] ++ [(v >>> 8).toUInt8]
      from rfl, write_append]
  rfl

theorem writeUint32_of_le {offset : UInt64} (h : offset.toNat + 4 ≤ memSize.toNat) (v : UInt32) :
    writeUint32 mem memSize offset v = (true, write mem offset.toNat (bytes 4 v.toNat)) := by
  have hm := memSize.toNat_lt
  have h2 : (offset + 2).toNat = offset.toNat + 2 := WasmDeserializer.toNat_add_of_lt (by simp; omega)
  have h3 : (offset + 3).toNat = offset.toNat + 3 := WasmDeserializer.toNat_add_of_lt (by simp; omega)
  have hg : ¬ offset + 3 ≥ memSize := by
    rw [ge_iff_le, UInt64.le_iff_toNat_le, h3]
    omega
  -- the low and the high half are the first and the last two bytes
  have hlow : bytes 2 v.toUInt16.toNat = bytes 2 v.toNat := by
    rw [UInt32.toNat_toUInt16]
    exact bytes_mod 2 v.toNat
  have hhigh : bytes 2 (v >>> 16).toUInt16.toNat = bytes 2 (v.toNat / 256 ^ 2) := by
    rw [UInt32.toNat_toUInt16, UInt32.toNat_shiftRight, Nat.shiftRight_eq_div_pow]
    exact bytes_mod 2 _
  rw [writeUint32, if_neg hg, writeUint16_of_le (by omega)]
  dsimp only
  rw [if_pos rfl, writeUint16_of_le (by rw [h2]; omega), h2, hlow, hhigh,
    show 4 = 2 + 2 from rfl, bytes_add, write_append, length_bytes]

theorem writeUint16_of_ge {offset : UInt64} (h : offset ≥ memSize) (v : UInt16) :
    writeUint16 mem memSize offset v = (false, mem) := by
  unfold writeUint16
  split
  · rfl
  · rw [writeUint8_of_ge h]
    rfl

theorem writeUint32_of_ge {offset : UInt64} (h : offset ≥ memSize) (v : UInt32) :
    writeUint32 mem memSize offset v = (false, mem) := by
  unfold writeUint32
  split
  · rfl
  · rw [writeUint16_of_ge h]
    rfl

/-- A `uint32` that does not fit writes nothing. -/
theorem writeUint32_of_not_le (hm : memSize.toNat ≤ 2 ^ 32) {offset : UInt64}
    (h : ¬ offset.toNat + 4 ≤ memSize.toNat) (v : UInt32) :
    writeUint32 mem memSize offset v = (false, mem) := by
  by_cases ho : offset ≥ memSize
  · exact writeUint32_of_ge ho v
  · have hlt := UInt64.lt_iff_toNat_lt.mp (UInt64.not_le.mp ho)
    have h3 : (offset + 3).toNat = offset.toNat + 3 :=
      WasmDeserializer.toNat_add_of_lt (by simp; omega)
    have hg : offset + 3 ≥ memSize := by
      rw [ge_iff_le, UInt64.le_iff_toNat_le, h3]
      omega
    exact if_pos hg

theorem writeUint32_unchanged (hm : memSize.toNat ≤ 2 ^ 32) (mem : Nat → UInt8)
    (offset : UInt64) (v : UInt32) :
    Unchanged offset.toNat (offset.toNat + 4) mem (writeUint32 mem memSize offset v).2 := by
  by_cases h : offset.toNat + 4 ≤ memSize.toNat
  · rw [writeUint32_of_le h]
    exact unchanged_write mem offset.toNat (bytes 4 v.toNat)
  · rw [writeUint32_of_not_le hm h]
    exact Unchanged.refl _ _ _

end Numbers

/-! ## Strings -/

/-- The bytes a string takes in memory at `offset`: its own, then its
record, the pointer to them and their count. -/
def stringImage (offset : Nat) (s : List UInt8) : List UInt8 :=
  s ++ bytes 4 offset ++ bytes 4 s.length

@[simp] theorem length_stringImage (offset : Nat) (s : List UInt8) :
    (stringImage offset s).length = RomaWasmStringRepresentation.computeMemorySizeFor s := by
  simp [stringImage, RomaWasmStringRepresentation.computeMemorySizeFor]

section Strings

variable {mem : Nat → UInt8} {memSize : UInt64}

theorem writeRawChars_of_le (cs : List UInt8) {mem : Nat → UInt8} {offset : UInt64}
    (h : offset.toNat + cs.length ≤ memSize.toNat) :
    writeRawChars memSize mem cs offset = (true, write mem offset.toNat cs) := by
  induction cs generalizing mem offset with
  | nil => simp [writeRawChars]
  | cons c cs ih =>
      have hm := memSize.toNat_lt
      have h1 : (offset + 1).toNat = offset.toNat + 1 :=
        WasmDeserializer.toNat_add_of_lt (by simp; simp at h; omega)
      simp only [List.length_cons] at h
      rw [writeRawChars, writeUint8_of_lt (UInt64.lt_iff_toNat_lt.mpr (by omega))]
      dsimp only
      rw [if_pos rfl, ih (by rw [h1]; omega), h1,
        show c :: cs = [c] ++ cs from rfl, write_append]
      rfl

/-- A copy that runs past the memory fails. -/
theorem writeRawChars_of_not_le (hm : memSize.toNat ≤ 2 ^ 32) (cs : List UInt8)
    {mem : Nat → UInt8} {offset : UInt64} (h : ¬ offset.toNat + cs.length ≤ memSize.toNat)
    (hcs : cs ≠ []) : (writeRawChars memSize mem cs offset).1 = false := by
  induction cs generalizing mem offset with
  | nil => exact absurd rfl hcs
  | cons c cs ih =>
      simp only [List.length_cons] at h
      by_cases ho : offset ≥ memSize
      · rw [writeRawChars, writeUint8_of_ge ho]
        rfl
      · have hlt := UInt64.lt_iff_toNat_lt.mp (UInt64.not_le.mp ho)
        have h1 : (offset + 1).toNat = offset.toNat + 1 :=
          WasmDeserializer.toNat_add_of_lt (by simp; omega)
        rw [writeRawChars, writeUint8_of_lt (UInt64.not_le.mp ho)]
        dsimp only
        rw [if_pos rfl]
        refine ih (by rw [h1]; omega) ?_
        rintro rfl
        simp at h
        omega

theorem writeRawChars_unchanged (hm : memSize.toNat ≤ 2 ^ 32) (cs : List UInt8)
    (mem : Nat → UInt8) (offset : UInt64) :
    Unchanged offset.toNat (offset.toNat + cs.length) mem (writeRawChars memSize mem cs offset).2 := by
  induction cs generalizing mem offset with
  | nil => exact Unchanged.refl _ _ _
  | cons c cs ih =>
      by_cases ho : offset ≥ memSize
      · rw [writeRawChars, writeUint8_of_ge ho]
        exact Unchanged.refl _ _ _
      · -- the first cell, then the rest from the next one
        have hlt := UInt64.lt_iff_toNat_lt.mp (UInt64.not_le.mp ho)
        have h1 : (offset + 1).toNat = offset.toNat + 1 :=
          WasmDeserializer.toNat_add_of_lt (by simp; omega)
        rw [writeRawChars, writeUint8_of_lt (UInt64.not_le.mp ho)]
        dsimp only
        rw [if_pos rfl]
        have hrest := ih (write mem offset.toNat [c]) (offset + 1)
        rw [h1] at hrest
        exact ((unchanged_write mem offset.toNat [c]).mono (Nat.le_refl _) (by simp)).trans
          (hrest.mono (by omega) (by simp; omega))

theorem toNat_length_toUInt64 {str : List UInt8} (hs : str.length < 2 ^ 64) :
    str.length.toUInt64.toNat = str.length := by
  simp only [Nat.toUInt64, UInt64.toNat_ofNat']
  exact Nat.mod_eq_of_lt hs

theorem writeRawString_of_le {offset : UInt64} {str : List UInt8}
    (h : offset.toNat + str.length ≤ memSize.toNat) (hne : 0 < offset.toNat + str.length) :
    writeRawString mem memSize offset str str.length.toUInt64 = (true, write mem offset.toNat str) := by
  have hm := memSize.toNat_lt
  have hlen : str.length.toUInt64.toNat = str.length := toNat_length_toUInt64 (by omega)
  have hg : ¬ offset + str.length.toUInt64 - 1 ≥ memSize := by
    rw [ge_iff_le, UInt64.le_iff_toNat_le, Nat.not_le]
    simp only [UInt64.toNat_sub, UInt64.toNat_add, hlen, UInt64.toNat_one, Nat.reducePow]
    omega
  rw [writeRawString, if_neg hg, hlen, List.take_length, writeRawChars_of_le str h]

/-- The empty string at offset 0: `0 + 0 - 1` wraps, and the check fails. -/
theorem writeRawString_zero_nil :
    writeRawString mem memSize 0 [] ([] : List UInt8).length.toUInt64 = (false, mem) := by
  have hm := memSize.toNat_lt
  refine if_pos ?_
  rw [show ([] : List UInt8).length.toUInt64 = 0 from rfl, UInt64.add_zero, ge_iff_le,
    UInt64.le_iff_toNat_le]
  simp only [UInt64.toNat_sub, UInt64.toNat_one, Nat.reducePow, UInt64.toNat_zero]
  omega

/-- A string that runs past the memory is not written through. -/
theorem writeRawString_of_not_le (hm : memSize.toNat ≤ 2 ^ 32) {offset : UInt64}
    {str : List UInt8} (hs : str.length < 2 ^ 64) (h : ¬ offset.toNat + str.length ≤ memSize.toNat) :
    (writeRawString mem memSize offset str str.length.toUInt64).1 = false := by
  have hlen := toNat_length_toUInt64 hs
  unfold writeRawString
  split
  · rfl
  · next hg =>
    rw [hlen, List.take_length]
    refine writeRawChars_of_not_le hm str h ?_
    -- an empty string past the memory fails the check
    rintro rfl
    apply hg
    rw [show ([] : List UInt8).length.toUInt64 = 0 from rfl, UInt64.add_zero, ge_iff_le,
      UInt64.le_iff_toNat_le]
    simp only [List.length_nil, Nat.add_zero] at h
    simp only [UInt64.toNat_sub, UInt64.toNat_one, Nat.reducePow]
    have := offset.toNat_lt
    omega

theorem writeRawString_unchanged (hm : memSize.toNat ≤ 2 ^ 32) (mem : Nat → UInt8)
    (offset : UInt64) (str : List UInt8) :
    Unchanged offset.toNat (offset.toNat + str.length) mem
      (writeRawString mem memSize offset str str.length.toUInt64).2 := by
  unfold writeRawString
  split
  · exact Unchanged.refl _ _ _
  · exact (writeRawChars_unchanged hm _ mem offset).mono (Nat.le_refl _)
      (by simp only [List.length_take]; omega)

/-- With its room inside the memory, a string other than the empty one at
offset 0 is written as its image, and the offset of its record returned. -/
theorem writeCustomString_of_le {offset : UInt64} {str : List UInt8}
    (h : offset.toNat + RomaWasmStringRepresentation.computeMemorySizeFor str ≤ memSize.toNat)
    (hne : 0 < offset.toNat + str.length) :
    writeCustomString mem memSize offset str =
      (UInt32.ofNat (offset.toNat + str.length),
        write mem offset.toNat (stringImage offset.toNat str)) := by
  unfold RomaWasmStringRepresentation.computeMemorySizeFor at h
  have hs := memSize.toNat_lt
  have hlen : str.length.toUInt64.toNat = str.length := toNat_length_toUInt64 (by omega)
  have hstruct : (offset + str.length.toUInt64).toNat = offset.toNat + str.length := by
    rw [WasmDeserializer.toNat_add_of_lt (by rw [hlen]; omega), hlen]
  have hstruct4 : (offset + str.length.toUInt64 + 4).toNat = offset.toNat + str.length + 4 := by
    rw [WasmDeserializer.toNat_add_of_lt (by rw [hstruct]; simp; omega), hstruct]
    rfl
  -- the record holds the offset and the count, each in 4 bytes
  have hptr : bytes 4 offset.toUInt32.toNat = bytes 4 offset.toNat := by
    rw [UInt64.toNat_toUInt32]
    exact bytes_mod 4 _
  have hcount : bytes 4 str.length.toUInt32.toNat = bytes 4 str.length := by
    simp only [Nat.toUInt32, UInt32.toNat_ofNat']
    exact bytes_mod 4 _
  rw [writeCustomString]
  dsimp only
  rw [writeRawString_of_le (by omega) hne]
  dsimp only
  rw [Bool.not_true, if_neg Bool.false_ne_true, writeUint32_of_le (by rw [hstruct]; omega)]
  dsimp only
  rw [if_pos rfl, writeUint32_of_le (by rw [hstruct4]; omega)]
  dsimp only
  rw [Bool.not_true, if_neg Bool.false_ne_true, hstruct, hstruct4, hptr, hcount, stringImage,
    write_append, write_append, List.length_append, length_bytes, Nat.add_assoc]
  congr 1
  apply UInt32.toNat_inj.mp
  rw [UInt64.toNat_toUInt32, hstruct, UInt32.toNat_ofNat']

theorem pair_eq_of_fst {β : Type} {p : Bool × β} (h : p.1 = false) : p = (false, p.2) :=
  Prod.ext h rfl

theorem writeCustomString_zero_nil : (writeCustomString mem memSize 0 []).1 = 0xFFFFFFFF := by
  rw [writeCustomString]
  dsimp only
  rw [writeRawString_zero_nil]
  rfl

/-- A string whose room does not fit fails. -/
theorem writeCustomString_of_not_le (hm : memSize.toNat ≤ 2 ^ 32) {offset : UInt64}
    {str : List UInt8} (hs : str.length < 2 ^ 64)
    (h : ¬ offset.toNat + RomaWasmStringRepresentation.computeMemorySizeFor str ≤ memSize.toNat) :
    (writeCustomString mem memSize offset str).1 = 0xFFFFFFFF := by
  unfold RomaWasmStringRepresentation.computeMemorySizeFor at h
  have hsize := memSize.toNat_lt
  by_cases hraw : offset.toNat + str.length ≤ memSize.toNat
  · by_cases hne : 0 < offset.toNat + str.length
    · -- the bytes are written, but not the whole record
      have hlen := toNat_length_toUInt64 hs
      have hstruct : (offset + str.length.toUInt64).toNat = offset.toNat + str.length := by
        rw [WasmDeserializer.toNat_add_of_lt (by rw [hlen]; omega), hlen]
      have hstruct4 : (offset + str.length.toUInt64 + 4).toNat = offset.toNat + str.length + 4 := by
        rw [WasmDeserializer.toNat_add_of_lt (by rw [hstruct]; simp; omega), hstruct]
        rfl
      rw [writeCustomString]
      dsimp only
      rw [writeRawString_of_le hraw hne]
      dsimp only
      rw [Bool.not_true, if_neg Bool.false_ne_true]
      by_cases h4 : offset.toNat + str.length + 4 ≤ memSize.toNat
      · rw [writeUint32_of_le (by rw [hstruct]; omega)]
        dsimp only
        rw [if_pos rfl, writeUint32_of_not_le hm (by rw [hstruct4]; omega)]
        rfl
      · rw [writeUint32_of_not_le hm (by rw [hstruct]; omega)]
        rfl
    · have ho : offset = 0 := UInt64.toNat_inj.mp (by simp; omega)
      have hstr : str = [] := List.eq_nil_of_length_eq_zero (by omega)
      subst ho hstr
      exact writeCustomString_zero_nil
  · rw [writeCustomString]
    dsimp only
    rw [pair_eq_of_fst (writeRawString_of_not_le hm hs hraw)]
    rfl

/-- `WriteCustomString` writes nothing outside the string's room. -/
theorem writeCustomString_unchanged (hm : memSize.toNat ≤ 2 ^ 32) (mem : Nat → UInt8)
    (offset : UInt64) {str : List UInt8} (hs : str.length < 2 ^ 64) :
    Unchanged offset.toNat (offset.toNat + RomaWasmStringRepresentation.computeMemorySizeFor str)
      mem (writeCustomString mem memSize offset str).2 := by
  unfold RomaWasmStringRepresentation.computeMemorySizeFor
  have hsize := memSize.toNat_lt
  have hraw := writeRawString_unchanged hm mem offset str
  -- a raw write that succeeded stayed inside the memory
  have hfit : (writeRawString mem memSize offset str str.length.toUInt64).1 = true →
      offset.toNat + str.length ≤ memSize.toNat := by
    intro hw
    by_contra hn
    rw [writeRawString_of_not_le hm hs hn] at hw
    cases hw
  rw [writeCustomString]
  dsimp only
  generalize writeRawString mem memSize offset str str.length.toUInt64 = r at hraw hfit ⊢
  obtain ⟨worked, mem₁⟩ := r
  dsimp only at hraw hfit ⊢
  cases worked
  · exact hraw.mono (Nat.le_refl _) (by omega)
  · rw [Bool.not_true, if_neg Bool.false_ne_true]
    have hlen := toNat_length_toUInt64 hs
    have hf := hfit rfl
    have hstruct : (offset + str.length.toUInt64).toNat = offset.toNat + str.length := by
      rw [WasmDeserializer.toNat_add_of_lt (by rw [hlen]; omega), hlen]
    have hstruct4 : (offset + str.length.toUInt64 + 4).toNat = offset.toNat + str.length + 4 := by
      rw [WasmDeserializer.toNat_add_of_lt (by rw [hstruct]; simp; omega), hstruct]
      rfl
    have hptr := writeUint32_unchanged hm mem₁ (offset + str.length.toUInt64) offset.toUInt32
    rw [hstruct] at hptr
    generalize writeUint32 mem₁ memSize (offset + str.length.toUInt64) offset.toUInt32 = r at hptr ⊢
    obtain ⟨worked₂, mem₂⟩ := r
    dsimp only at hptr ⊢
    have hfirst : Unchanged offset.toNat (offset.toNat + (str.length + 4 + 4)) mem mem₂ :=
      (hraw.mono (Nat.le_refl _) (by omega)).trans (hptr.mono (by omega) (by omega))
    cases worked₂
    · simp only [Bool.false_eq_true, ↓reduceIte]
      exact hfirst
    · have hcount := writeUint32_unchanged hm mem₂ (offset + str.length.toUInt64 + 4)
        str.length.toUInt32
      rw [hstruct4] at hcount
      have hall : Unchanged offset.toNat (offset.toNat + (str.length + 4 + 4)) mem
          (writeUint32 mem₂ memSize (offset + str.length.toUInt64 + 4) str.length.toUInt32).2 :=
        hfirst.trans (hcount.mono (by omega) (by omega))
      simp only [↓reduceIte]
      split <;> exact hall

/-- A pointer below the last `uint32` is not the failure's `UINT32_MAX`. -/
theorem ofNat_ne_max {n : Nat} (h : n + 1 < 2 ^ 32) : UInt32.ofNat n ≠ 0xFFFFFFFF := by
  intro heq
  have hval := congrArg UInt32.toNat heq
  rw [UInt32.toNat_ofNat', Nat.mod_eq_of_lt (by omega)] at hval
  simp at hval
  omega

/-- `WriteCustomString` succeeds exactly when the string's room fits the
memory, except for the empty string at offset 0. -/
theorem writeCustomString_succeeds_iff (hm : memSize.toNat ≤ 2 ^ 32) (offset : UInt64)
    {str : List UInt8} (hs : str.length < 2 ^ 64) :
    (writeCustomString mem memSize offset str).1 ≠ 0xFFFFFFFF ↔
      offset.toNat + RomaWasmStringRepresentation.computeMemorySizeFor str ≤ memSize.toNat ∧
        0 < offset.toNat + str.length := by
  constructor
  · intro h
    by_contra hn
    rcases not_and_or.mp hn with hfit | hne
    · exact h (writeCustomString_of_not_le hm hs hfit)
    · have ho : offset = 0 := UInt64.toNat_inj.mp (by simp; omega)
      have hstr : str = [] := List.eq_nil_of_length_eq_zero (by omega)
      subst ho hstr
      exact h writeCustomString_zero_nil
  · rintro ⟨hfit, hne⟩
    rw [writeCustomString_of_le hfit hne]
    unfold RomaWasmStringRepresentation.computeMemorySizeFor at hfit
    exact ofNat_ne_max (by omega)

/-- The record of a string at `offset` holds `offset`, read as a `uint32`. -/
theorem ofNat_value_bytes_four {n : Nat} (h : n < 2 ^ 32) :
    (UInt32.ofNat (value (bytes 4 n))).toNat = n := by
  rw [value_bytes, UInt32.toNat_ofNat', Nat.mod_mod_of_dvd _ (by decide), Nat.mod_eq_of_lt h]

/-- Wherever the image of a string sits inside the memory, `ReadCustomString`
at its record gives the string back, unless its first byte is 0. -/
theorem readCustomString_of_image (hm : memSize.toNat ≤ 2 ^ 32) {offset : Nat} {str : List UInt8}
    (hfit : offset + RomaWasmStringRepresentation.computeMemorySizeFor str ≤ memSize.toNat)
    (hne : 0 < offset + str.length)
    (himg : read mem offset (RomaWasmStringRepresentation.computeMemorySizeFor str) =
      stringImage offset str) :
    WasmDeserializer.readCustomString mem memSize (UInt64.ofNat (offset + str.length)) =
      .ok (if str.headD 0 = 0 then [] else str) := by
  unfold RomaWasmStringRepresentation.computeMemorySizeFor at hfit himg
  have hsize := memSize.toNat_lt
  -- the image's three parts: the bytes, the pointer and the count
  rw [read_add, read_add, stringImage] at himg
  obtain ⟨h12, hcount⟩ := List.append_inj himg (by simp)
  obtain ⟨hbytes, hptr⟩ := List.append_inj h12 (by simp)
  have hrecord : (UInt64.ofNat (offset + str.length)).toNat = offset + str.length := by
    rw [UInt64.toNat_ofNat', Nat.mod_eq_of_lt (by omega)]
  have hrecord4 : (UInt64.ofNat (offset + str.length) + 4).toNat = offset + str.length + 4 := by
    rw [WasmDeserializer.toNat_add_of_lt (by rw [hrecord]; simp; omega), hrecord]
    rfl
  have hoff : (UInt32.ofNat offset).toNat = offset := by
    rw [UInt32.toNat_ofNat', Nat.mod_eq_of_lt (by omega)]
  have hlen : (UInt32.ofNat str.length).toNat = str.length := by
    rw [UInt32.toNat_ofNat', Nat.mod_eq_of_lt (by omega)]
  have hptrVal : WasmDeserializer.readUint32 mem memSize (UInt64.ofNat (offset + str.length)) =
      .ok (UInt32.ofNat offset) := by
    rw [WasmDeserializer.readUint32_of_le (by rw [hrecord]; omega), hrecord, hptr]
    congr 1
    apply UInt32.toNat_inj.mp
    rw [ofNat_value_bytes_four (by omega), hoff]
  have hlenVal : WasmDeserializer.readUint32 mem memSize (UInt64.ofNat (offset + str.length) + 4) =
      .ok (UInt32.ofNat str.length) := by
    rw [WasmDeserializer.readUint32_of_le (by rw [hrecord4]; omega), hrecord4, Nat.add_assoc,
      hcount]
    congr 1
    apply UInt32.toNat_inj.mp
    rw [ofNat_value_bytes_four (by omega), hlen]
  have hmax : UInt32.ofNat str.length ≠ 0xFFFFFFFF := by
    intro h
    have h' := congrArg UInt32.toNat h
    rw [hlen] at h'
    simp at h'
    omega
  rw [WasmDeserializer.readCustomString_of_record (by rw [hrecord]; omega) hptrVal hlenVal
    (by rw [hoff, hlen]; omega) (by rw [hoff, hlen]; omega) hmax, hoff, hlen, hbytes]

/-- What `WriteCustomString` wrote, `ReadCustomString` at the pointer it
returned reads back, unless the string's first byte is 0. -/
theorem readCustomString_writeCustomString (hm : memSize.toNat ≤ 2 ^ 32) {offset : UInt64}
    {str : List UInt8}
    (hfit : offset.toNat + RomaWasmStringRepresentation.computeMemorySizeFor str ≤ memSize.toNat)
    (hne : 0 < offset.toNat + str.length) :
    WasmDeserializer.readCustomString (writeCustomString mem memSize offset str).2 memSize
        (writeCustomString mem memSize offset str).1.toUInt64 =
      .ok (if str.headD 0 = 0 then [] else str) := by
  have hsize : offset.toNat + str.length < 2 ^ 32 := by
    unfold RomaWasmStringRepresentation.computeMemorySizeFor at hfit
    omega
  have hptr : (UInt32.ofNat (offset.toNat + str.length)).toUInt64 =
      UInt64.ofNat (offset.toNat + str.length) := by
    apply UInt64.toNat_inj.mp
    rw [UInt32.toNat_toUInt64, UInt32.toNat_ofNat', UInt64.toNat_ofNat', Nat.mod_eq_of_lt hsize,
      Nat.mod_eq_of_lt (by omega)]
  rw [writeCustomString_of_le hfit hne, hptr]
  exact readCustomString_of_image hm hfit hne
    (by rw [← length_stringImage offset.toNat str]; exact read_write_self _ _ _)

end Strings

end WasmSerializer

end ControlPlane.Roma
