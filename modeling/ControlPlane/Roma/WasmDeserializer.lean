import ControlPlane.Lib.Memory

/-!
# Reading strings and lists of strings out of WASM memory

`WasmDeserializer` (src/cc/roma/wasm/src/deserializer.cc) reads what a WASM
module left in its linear memory. A string is a record of two `uint32`, the
pointer to its bytes and their count; a list of strings is a record of the
pointer to an array of pointers to string records and the count of them.
Numbers are stored least significant byte first.

Every cell is read through `ReadUint8`, which answers 0 outside the memory,
so no read leaves the memory. The record's pointer and count come from the
module; the guard on them is computed in `uint32`, and the re-check of
`ReadRawString` in `size_t` catches every range it lets through past the
end. The temporary string is reserved for `str_data_len + 1` characters,
again in `uint32`: for a count of 2^32 - 1 that is 0, and the copy overruns
it (`readCustomString_cases`).

## Implementation notes

`size_t` is `UInt64` and `uint32_t` is `UInt32`; the memory is a function of
the index with its size `mem_size`. An access to a cell is `load`, which
faults outside the memory; a store into the temporary string faults beyond
the storage `reserve` guarantees, the characters asked for and the slot of
the terminator. A `std::string` is the list of its bytes.
-/

namespace ControlPlane.Roma

open Memory

/-- What the C++ leaves undefined. -/
inductive Fault where
  | outOfBoundsRead
  | storageOverflow
  deriving DecidableEq, Repr

namespace WasmDeserializer

/-- `static_cast<uint8_t*>(mem_ptr)[offset]`. -/
def load (mem : Nat → UInt8) (memSize offset : UInt64) : Except Fault UInt8 :=
  if offset < memSize then .ok (mem offset.toNat) else .error .outOfBoundsRead

def readUint8 (mem : Nat → UInt8) (memSize offset : UInt64) : Except Fault UInt8 :=
  -- We got an invalid offset within the current memory
  if offset ≥ memSize then pure 0
  else load mem memSize offset

def readUint16 (mem : Nat → UInt8) (memSize offset : UInt64) : Except Fault UInt16 :=
  if offset + 1 ≥ memSize then pure 0
  else do
    let lo := (← readUint8 mem memSize offset).toUInt16
    let hi := (← readUint8 mem memSize (offset + 1)).toUInt16
    pure (lo ||| (hi <<< 8))

def readUint32 (mem : Nat → UInt8) (memSize offset : UInt64) : Except Fault UInt32 :=
  if offset + 3 ≥ memSize then pure 0
  else do
    let lo := (← readUint16 mem memSize offset).toUInt32
    let hi := (← readUint16 mem memSize (offset + 2)).toUInt32
    pure (lo ||| (hi <<< 16))

/-- The loop of `ReadRawString`, `str[i] = ReadUint8(local_offset++)` for
the next `n` characters, into a string with room for `storage`. -/
def readRawChars (mem : Nat → UInt8) (memSize : UInt64) (storage : Nat) :
    Nat → UInt64 → Nat → Except Fault (List UInt8)
  | 0, _, _ => pure []
  | n + 1, localOffset, i => do
      let c ← readUint8 mem memSize localOffset
      if storage ≤ i then throw .storageOverflow
      let rest ← readRawChars mem memSize storage n (localOffset + 1) (i + 1)
      pure (c :: rest)

/-- `ReadRawString` into a string with room for `storage` characters: the
characters it stores, from the first. A failed check stores the
terminator in the first, which every string has room for. -/
def readRawString (mem : Nat → UInt8) (memSize offset strLen : UInt64) (storage : Nat) :
    Except Fault (List UInt8) :=
  if offset + strLen - 1 ≥ memSize then pure [0]
  else readRawChars mem memSize storage strLen.toNat offset 0

def readCustomString (mem : Nat → UInt8) (memSize offset : UInt64) : Except Fault (List UInt8) :=
  -- This means we can't even read the string pointer and length
  if offset + 7 ≥ memSize then pure []
  else do
    let strDataPtr ← readUint32 mem memSize offset
    let strDataLen ← readUint32 mem memSize (offset + 4)
    -- This means we can't read the string data
    if (strDataPtr + strDataLen - 1).toUInt64 ≥ memSize then pure []
    else do
      -- `reserve(str_data_len + 1)` in `uint32_t`, and the terminator's slot
      let tempBuffer ← readRawString mem memSize strDataPtr.toUInt64 strDataLen.toUInt64
        ((strDataLen + 1).toNat + 1)
      -- `temp_buffer[0]`: the first character stored, or the terminator
      if tempBuffer.headD 0 = 0 then pure []
      else pure (tempBuffer.take strDataLen.toNat)

/-- The loop of `ReadCustomListOfString` over the next `n` string pointers,
from `offset`, pushing each string onto `output`. -/
def readStrings (mem : Nat → UInt8) (memSize : UInt64) :
    Nat → UInt64 → List (List UInt8) → Except Fault (List (List UInt8))
  | 0, _, output => pure output
  | n + 1, offset, output =>
      -- This means we can't even read the string pointer
      if offset + 3 ≥ memSize then pure []
      else do
        let strPtr ← readUint32 mem memSize offset
        let str ← readCustomString mem memSize strPtr.toUInt64
        readStrings mem memSize n (offset + 4) (output ++ [str])

def readCustomListOfString (mem : Nat → UInt8) (memSize offset : UInt64)
    (output : List (List UInt8)) : Except Fault (List (List UInt8)) :=
  -- This means we can't even read the list pointer and length
  if offset + 7 ≥ memSize then pure []
  else do
    let ptrToListOfStrPtrs ← readUint32 mem memSize offset
    let listLength ← readUint32 mem memSize (offset + 4)
    -- This means we can't read the list data
    if (ptrToListOfStrPtrs + listLength - 1).toUInt64 ≥ memSize then pure []
    else readStrings mem memSize listLength.toNat ptrToListOfStrPtrs.toUInt64 output

/-! ## Numbers -/

section Numbers

variable {mem : Nat → UInt8} {memSize : UInt64}

theorem toNat_add_of_lt {a b : UInt64} (h : a.toNat + b.toNat < 2 ^ 64) :
    (a + b).toNat = a.toNat + b.toNat := by
  rw [UInt64.toNat_add, Nat.mod_eq_of_lt h]

theorem readUint8_of_lt {offset : UInt64} (h : offset < memSize) :
    readUint8 mem memSize offset = .ok (mem offset.toNat) := by
  rw [readUint8, if_neg (UInt64.not_le.mpr h), load, if_pos h]

theorem readUint8_of_ge {offset : UInt64} (h : offset ≥ memSize) :
    readUint8 mem memSize offset = .ok 0 := if_pos h

/-- `ReadUint8` never reads outside the memory. -/
theorem readUint8_ok (mem : Nat → UInt8) (memSize offset : UInt64) :
    ∃ c, readUint8 mem memSize offset = .ok c := by
  by_cases h : offset ≥ memSize
  · exact ⟨0, readUint8_of_ge h⟩
  · exact ⟨_, readUint8_of_lt (UInt64.not_le.mp h)⟩

theorem readUint16_ok (mem : Nat → UInt8) (memSize offset : UInt64) :
    ∃ v, readUint16 mem memSize offset = .ok v := by
  unfold readUint16
  split
  · exact ⟨0, rfl⟩
  · obtain ⟨lo, hlo⟩ := readUint8_ok mem memSize offset
    obtain ⟨hi, hhi⟩ := readUint8_ok mem memSize (offset + 1)
    simp only [hlo, hhi]
    exact ⟨_, rfl⟩

theorem readUint32_ok (mem : Nat → UInt8) (memSize offset : UInt64) :
    ∃ v, readUint32 mem memSize offset = .ok v := by
  unfold readUint32
  split
  · exact ⟨0, rfl⟩
  · obtain ⟨lo, hlo⟩ := readUint16_ok mem memSize offset
    obtain ⟨hi, hhi⟩ := readUint16_ok mem memSize (offset + 2)
    simp only [hlo, hhi]
    exact ⟨_, rfl⟩

/-- `lo | (hi << 8)` of two bytes is the number they spell. -/
theorem toUInt16_or_shiftLeft (lo hi : UInt8) :
    lo.toUInt16 ||| (hi.toUInt16 <<< 8) = UInt16.ofNat (lo.toNat + 256 * hi.toNat) := by
  have hlo := lo.toNat_lt
  have hhi := hi.toNat_lt
  have h8 : (8 : UInt16).toNat % 16 = 8 := rfl
  have h256 : (2 : Nat) ^ 8 = 256 := by decide
  apply UInt16.toNat_inj.mp
  rw [UInt16.toNat_or, UInt16.toNat_shiftLeft, UInt8.toNat_toUInt16, UInt8.toNat_toUInt16, h8,
    Nat.mod_eq_of_lt (by rw [Nat.shiftLeft_eq]; omega), or_shiftLeft_eq_add _ hlo, h256,
    UInt16.toNat_ofNat', Nat.mod_eq_of_lt (by omega)]

/-- `lo | (hi << 16)` of two `uint16` is the number their bytes spell. -/
theorem toUInt32_or_shiftLeft (lo hi : UInt16) :
    lo.toUInt32 ||| (hi.toUInt32 <<< 16) = UInt32.ofNat (lo.toNat + 65536 * hi.toNat) := by
  have hlo := lo.toNat_lt
  have hhi := hi.toNat_lt
  have h16 : (16 : UInt32).toNat % 32 = 16 := rfl
  have h65536 : (2 : Nat) ^ 16 = 65536 := by decide
  apply UInt32.toNat_inj.mp
  rw [UInt32.toNat_or, UInt32.toNat_shiftLeft, UInt16.toNat_toUInt32, UInt16.toNat_toUInt32, h16,
    Nat.mod_eq_of_lt (by rw [Nat.shiftLeft_eq]; omega), or_shiftLeft_eq_add _ hlo, h65536,
    UInt32.toNat_ofNat', Nat.mod_eq_of_lt (by omega)]

theorem value_read_two (mem : Nat → UInt8) (start : Nat) :
    value (read mem start 2) = (mem start).toNat + 256 * (mem (start + 1)).toNat := by
  simp [read_succ, value]

/-- Inside the memory, `ReadUint16` reads the number of two bytes. -/
theorem readUint16_of_le {offset : UInt64} (h : offset.toNat + 2 ≤ memSize.toNat) :
    readUint16 mem memSize offset = .ok (UInt16.ofNat (value (read mem offset.toNat 2))) := by
  have hm := memSize.toNat_lt
  have h1 : (offset + 1).toNat = offset.toNat + 1 := toNat_add_of_lt (by simp; omega)
  have hg : ¬ offset + 1 ≥ memSize := by
    rw [ge_iff_le, UInt64.le_iff_toNat_le, h1]
    omega
  rw [readUint16, if_neg hg, readUint8_of_lt (UInt64.lt_iff_toNat_lt.mpr (by omega)),
    readUint8_of_lt (UInt64.lt_iff_toNat_lt.mpr (by omega))]
  simp only [bind, Except.bind, pure, Except.pure]
  rw [toUInt16_or_shiftLeft, value_read_two, h1]

/-- Inside the memory, `ReadUint32` reads the number of four bytes. -/
theorem readUint32_of_le {offset : UInt64} (h : offset.toNat + 4 ≤ memSize.toNat) :
    readUint32 mem memSize offset = .ok (UInt32.ofNat (value (read mem offset.toNat 4))) := by
  have hm := memSize.toNat_lt
  have h2 : (offset + 2).toNat = offset.toNat + 2 := toNat_add_of_lt (by simp; omega)
  have h3 : (offset + 3).toNat = offset.toNat + 3 := toNat_add_of_lt (by simp; omega)
  have hg : ¬ offset + 3 ≥ memSize := by
    rw [ge_iff_le, UInt64.le_iff_toNat_le, h3]
    omega
  rw [readUint32, if_neg hg, readUint16_of_le (by omega), readUint16_of_le (by rw [h2]; omega)]
  simp only [bind, Except.bind, pure, Except.pure]
  -- the two halves spell their numbers, each below 2^16
  have hlo := value_lt (read mem offset.toNat 2)
  have hhi := value_lt (read mem (offset.toNat + 2) 2)
  simp only [length_read] at hlo hhi
  have h65536 : (256 : Nat) ^ 2 = 65536 := by decide
  rw [toUInt32_or_shiftLeft, UInt16.toNat_ofNat', UInt16.toNat_ofNat', h2,
    Nat.mod_eq_of_lt (by omega), Nat.mod_eq_of_lt (by omega),
    show 4 = 2 + 2 from rfl, read_add, value_append, length_read, h65536]

end Numbers

/-! ## Strings -/

section Strings

variable {mem : Nat → UInt8} {memSize : UInt64} {storage : Nat}

/-- A copy that fits its storage and the memory stores the cells it reads. -/
theorem readRawChars_of_le (n : Nat) {localOffset : UInt64} {i : Nat} (hs : i + n ≤ storage)
    (hm : localOffset.toNat + n ≤ memSize.toNat) :
    readRawChars mem memSize storage n localOffset i = .ok (read mem localOffset.toNat n) := by
  induction n generalizing localOffset i with
  | zero => rfl
  | succ n ih =>
      have hsize := memSize.toNat_lt
      have h1 : (localOffset + 1).toNat = localOffset.toNat + 1 := toNat_add_of_lt (by simp; omega)
      rw [readRawChars, readUint8_of_lt (UInt64.lt_iff_toNat_lt.mpr (by omega))]
      simp only [bind, Except.bind, if_neg (show ¬ storage ≤ i by omega), pure, Except.pure]
      rw [ih (by omega) (by rw [h1]; omega), read_succ, h1]

/-- A copy longer than its storage overruns it. -/
theorem readRawChars_overflow (n : Nat) {localOffset : UInt64} {i : Nat} (hs : storage ≤ i + n) :
    readRawChars mem memSize storage (n + 1) localOffset i = .error .storageOverflow := by
  induction n generalizing localOffset i with
  | zero =>
      obtain ⟨c, hc⟩ := readUint8_ok mem memSize localOffset
      rw [readRawChars, hc]
      simp only [bind, Except.bind, if_pos (show storage ≤ i by omega)]
      rfl
  | succ n ih =>
      obtain ⟨c, hc⟩ := readUint8_ok mem memSize localOffset
      rw [readRawChars, hc]
      by_cases hfull : storage ≤ i
      · simp only [bind, Except.bind, if_pos hfull]
        rfl
      · simp only [bind, Except.bind, if_neg hfull, pure, Except.pure]
        rw [ih (by omega)]

/-- The `size_t` re-check `offset + str_len - 1 >= mem_size` of a pointer and
a count read as `uint32` is exact: it passes only for a range that ends
inside the memory. -/
theorem add_le_of_not_ge {ptr len : UInt32}
    (h : ¬ ptr.toUInt64 + len.toUInt64 - 1 ≥ memSize) : ptr.toNat + len.toNat ≤ memSize.toNat := by
  have hp := ptr.toNat_lt
  have hl := len.toNat_lt
  rw [ge_iff_le, UInt64.le_iff_toNat_le, Nat.not_le] at h
  simp only [UInt64.toNat_sub, UInt64.toNat_add, UInt32.toNat_toUInt64, UInt64.toNat_one,
    Nat.reducePow] at h
  omega

/-- `str_data_len + 1` in `uint32_t` wraps only for 2^32 - 1. -/
theorem toNat_add_one_of_ne {len : UInt32} (h : len ≠ 0xFFFFFFFF) :
    (len + 1).toNat = len.toNat + 1 := by
  have hl := len.toNat_lt
  have hne : len.toNat ≠ 0xFFFFFFFF := fun h' => h (UInt32.toNat_inj.mp h')
  rw [UInt32.toNat_add, UInt32.toNat_one, Nat.mod_eq_of_lt (by omega)]

theorem take_read_self (mem : Nat → UInt8) (start n : Nat) : (read mem start n).take n = read mem start n :=
  List.take_of_length_le (by simp)

/-- `ReadCustomString` reads nothing outside the memory, and it returns the
empty string, or the bytes of a range inside the memory that its record
names; but a count of 2^32 - 1 reserves no room and the copy overruns the
temporary string. -/
theorem readCustomString_cases (mem : Nat → UInt8) (memSize offset : UInt64) :
    readCustomString mem memSize offset = .ok [] ∨
    ∃ ptr len : UInt32, readUint32 mem memSize offset = .ok ptr ∧
      readUint32 mem memSize (offset + 4) = .ok len ∧ ptr.toNat + len.toNat ≤ memSize.toNat ∧
      (readCustomString mem memSize offset = .ok (read mem ptr.toNat len.toNat) ∨
        len = 0xFFFFFFFF ∧ readCustomString mem memSize offset = .error .storageOverflow) := by
  by_cases hhead : offset + 7 ≥ memSize
  · exact .inl (if_pos hhead)
  obtain ⟨ptr, hptr⟩ := readUint32_ok mem memSize offset
  obtain ⟨len, hlen⟩ := readUint32_ok mem memSize (offset + 4)
  -- what is left of `ReadCustomString` once the record is read
  have hrun : readCustomString mem memSize offset =
      if (ptr + len - 1).toUInt64 ≥ memSize then pure []
      else (readRawString mem memSize ptr.toUInt64 len.toUInt64 ((len + 1).toNat + 1)).bind
        fun tempBuffer => if tempBuffer.headD 0 = 0 then pure []
          else pure (tempBuffer.take len.toNat) := by
    rw [readCustomString, if_neg hhead, hptr, hlen]
    rfl
  rw [hrun]
  split
  · exact .inl rfl
  by_cases hraw : ptr.toUInt64 + len.toUInt64 - 1 ≥ memSize
  · -- the re-check stores the terminator first: the string is empty
    rw [readRawString, if_pos hraw]
    exact .inl rfl
  have hrange := add_le_of_not_ge hraw
  rw [readRawString, if_neg hraw, UInt32.toNat_toUInt64]
  by_cases hmax : len = 0xFFFFFFFF
  · -- `str_data_len + 1` wraps to 0: room for the terminator alone
    subst hmax
    refine .inr ⟨ptr, _, hptr, hlen, hrange, .inr ⟨rfl, ?_⟩⟩
    rw [show (0xFFFFFFFF + 1 : UInt32).toNat + 1 = 1 from rfl,
      show (0xFFFFFFFF : UInt32).toNat = 0xFFFFFFFE + 1 from rfl,
      readRawChars_overflow _ (by omega)]
    rfl
  · rw [toNat_add_one_of_ne hmax, readRawChars_of_le _ (by omega) (by rw [UInt32.toNat_toUInt64]; exact hrange),
      UInt32.toNat_toUInt64]
    -- a first byte of 0 reads as the empty string
    by_cases hnul : (read mem ptr.toNat len.toNat).headD 0 = 0
    · exact .inl (by simp only [Except.bind, if_pos hnul]; rfl)
    · refine .inr ⟨ptr, len, hptr, hlen, hrange, .inl ?_⟩
      simp only [Except.bind, if_neg hnul, take_read_self]
      rfl

/-- A record inside the memory that names a range inside the memory, of a
count that leaves room to reserve: `ReadCustomString` returns the bytes of
the range, or the empty string if the first of them is 0. -/
theorem readCustomString_of_record {offset : UInt64} {ptr len : UInt32}
    (hhead : offset.toNat + 8 ≤ memSize.toNat)
    (hptr : readUint32 mem memSize offset = .ok ptr)
    (hlen : readUint32 mem memSize (offset + 4) = .ok len)
    (hrange : ptr.toNat + len.toNat ≤ memSize.toNat) (hpos : 0 < ptr.toNat + len.toNat)
    (hmax : len ≠ 0xFFFFFFFF) :
    readCustomString mem memSize offset =
      .ok (if (read mem ptr.toNat len.toNat).headD 0 = 0 then [] else read mem ptr.toNat len.toNat) := by
  have hsize := memSize.toNat_lt
  have hp := ptr.toNat_lt
  have hl := len.toNat_lt
  have hg₁ : ¬ offset + 7 ≥ memSize := by
    rw [ge_iff_le, UInt64.le_iff_toNat_le, toNat_add_of_lt (by simp; omega)]
    simp
    omega
  -- both checks see the end of the range, the first modulo 2^32
  have hg₂ : ¬ (ptr + len - 1).toUInt64 ≥ memSize := by
    rw [ge_iff_le, UInt64.le_iff_toNat_le, UInt32.toNat_toUInt64]
    simp only [UInt32.toNat_sub, UInt32.toNat_add, UInt32.toNat_one, Nat.reducePow]
    omega
  have hg₃ : ¬ ptr.toUInt64 + len.toUInt64 - 1 ≥ memSize := by
    rw [ge_iff_le, UInt64.le_iff_toNat_le]
    simp only [UInt64.toNat_sub, UInt64.toNat_add, UInt32.toNat_toUInt64, UInt64.toNat_one,
      Nat.reducePow]
    omega
  rw [readCustomString, if_neg hg₁, hptr, hlen]
  simp only [bind, Except.bind, if_neg hg₂]
  rw [readRawString, if_neg hg₃, UInt32.toNat_toUInt64, toNat_add_one_of_ne hmax,
    readRawChars_of_le _ (by omega) (by rw [UInt32.toNat_toUInt64]; exact hrange)]
  simp only [take_read_self, UInt32.toNat_toUInt64]
  by_cases hnul : (read mem ptr.toNat len.toNat).headD 0 = 0
  · rw [if_pos hnul, if_pos hnul]
    rfl
  · rw [if_neg hnul, if_neg hnul]
    rfl

/-- `ReadCustomString` never reads outside the memory: it returns, or its
copy overruns the temporary string. -/
theorem readCustomString_ok_or_overflow (mem : Nat → UInt8) (memSize offset : UInt64) :
    (∃ str, readCustomString mem memSize offset = .ok str) ∨
      readCustomString mem memSize offset = .error .storageOverflow := by
  rcases readCustomString_cases mem memSize offset with h | ⟨_, _, _, _, _, h | ⟨_, h⟩⟩
  · exact .inl ⟨_, h⟩
  · exact .inl ⟨_, h⟩
  · exact .inr h

end Strings

/-! ## Lists of strings -/

section Lists

variable {mem : Nat → UInt8} {memSize : UInt64}

theorem offset_succ (offset : UInt64) (k : Nat) :
    offset + 4 * UInt64.ofNat (k + 1) = offset + 4 + 4 * UInt64.ofNat k := by
  rw [UInt64.ofNat_add, show UInt64.ofNat 1 = 1 from rfl, UInt64.mul_add, UInt64.mul_one,
    UInt64.add_assoc, UInt64.add_comm (4 * _)]

/-- The loop over the string pointers ends empty, overruns a temporary
string, or pushes one string per pointer: the one `ReadCustomString` reads
at the record that pointer names. -/
theorem readStrings_cases (mem : Nat → UInt8) (memSize : UInt64) (n : Nat) (offset : UInt64)
    (output : List (List UInt8)) :
    readStrings mem memSize n offset output = .ok [] ∨
    readStrings mem memSize n offset output = .error .storageOverflow ∨
    ∃ strs : List (List UInt8), strs.length = n ∧
      readStrings mem memSize n offset output = .ok (output ++ strs) ∧
      ∀ k < n, ∃ strPtr str, readUint32 mem memSize (offset + 4 * UInt64.ofNat k) = .ok strPtr ∧
        readCustomString mem memSize strPtr.toUInt64 = .ok str ∧ strs[k]? = some str := by
  induction n generalizing offset output with
  | zero => exact .inr (.inr ⟨[], rfl, by simp [readStrings, pure, Except.pure], by simp⟩)
  | succ n ih =>
      by_cases hguard : offset + 3 ≥ memSize
      · exact .inl (if_pos hguard)
      obtain ⟨strPtr, hptr⟩ := readUint32_ok mem memSize offset
      have hrun : readStrings mem memSize (n + 1) offset output =
          (readCustomString mem memSize strPtr.toUInt64).bind fun str =>
            readStrings mem memSize n (offset + 4) (output ++ [str]) := by
        rw [readStrings, if_neg hguard, hptr]
        rfl
      rw [hrun]
      rcases readCustomString_ok_or_overflow mem memSize strPtr.toUInt64 with ⟨str, hstr⟩ | hstr
      · rw [hstr]
        simp only [Except.bind]
        rcases ih (offset + 4) (output ++ [str]) with h | h | ⟨strs, hlen, h, hk⟩
        · exact .inl h
        · exact .inr (.inl h)
        · -- the first string, then those of the rest of the loop
          refine .inr (.inr ⟨str :: strs, by simp [hlen], by simpa using h, ?_⟩)
          intro k hk'
          cases k with
          | zero => exact ⟨strPtr, str, by simpa using hptr, hstr, rfl⟩
          | succ k =>
              obtain ⟨p, s, hp, hs, hsk⟩ := hk k (by omega)
              exact ⟨p, s, by rw [offset_succ]; exact hp, hs, hsk⟩
      · rw [hstr]
        exact .inr (.inl rfl)

/-- `ReadCustomListOfString` never reads outside the memory: it returns the
empty list, overruns a temporary string, or pushes exactly as many strings
as its record counts, each read by `ReadCustomString` at the pointer the
record's array holds. -/
theorem readCustomListOfString_cases (mem : Nat → UInt8) (memSize offset : UInt64)
    (output : List (List UInt8)) :
    readCustomListOfString mem memSize offset output = .ok [] ∨
    readCustomListOfString mem memSize offset output = .error .storageOverflow ∨
    ∃ ptr len : UInt32, ∃ strs : List (List UInt8),
      readUint32 mem memSize offset = .ok ptr ∧ readUint32 mem memSize (offset + 4) = .ok len ∧
      strs.length = len.toNat ∧ readCustomListOfString mem memSize offset output = .ok (output ++ strs) ∧
      ∀ k < len.toNat, ∃ strPtr str,
        readUint32 mem memSize (ptr.toUInt64 + 4 * UInt64.ofNat k) = .ok strPtr ∧
        readCustomString mem memSize strPtr.toUInt64 = .ok str ∧ strs[k]? = some str := by
  by_cases hhead : offset + 7 ≥ memSize
  · exact .inl (if_pos hhead)
  obtain ⟨ptr, hptr⟩ := readUint32_ok mem memSize offset
  obtain ⟨len, hlen⟩ := readUint32_ok mem memSize (offset + 4)
  have hrun : readCustomListOfString mem memSize offset output =
      if (ptr + len - 1).toUInt64 ≥ memSize then pure []
      else readStrings mem memSize len.toNat ptr.toUInt64 output := by
    rw [readCustomListOfString, if_neg hhead, hptr, hlen]
    rfl
  rw [hrun]
  split
  · exact .inl rfl
  rcases readStrings_cases mem memSize len.toNat ptr.toUInt64 output with h | h | ⟨strs, hl, h, hk⟩
  · exact .inl h
  · exact .inr (.inl h)
  · exact .inr (.inr ⟨ptr, len, strs, hptr, hlen, hl, h, hk⟩)

/-- A record inside the memory that names a non-empty range inside the
memory: `ReadCustomListOfString` runs the loop over the pointers from the
range's start. -/
theorem readCustomListOfString_of_record {offset : UInt64} {ptr len : UInt32}
    (output : List (List UInt8)) (hhead : offset.toNat + 8 ≤ memSize.toNat)
    (hptr : readUint32 mem memSize offset = .ok ptr)
    (hlen : readUint32 mem memSize (offset + 4) = .ok len)
    (hrange : ptr.toNat + len.toNat ≤ memSize.toNat) (hpos : 0 < len.toNat) :
    readCustomListOfString mem memSize offset output =
      readStrings mem memSize len.toNat ptr.toUInt64 output := by
  have hsize := memSize.toNat_lt
  have hp := ptr.toNat_lt
  have hl := len.toNat_lt
  have hg₁ : ¬ offset + 7 ≥ memSize := by
    rw [ge_iff_le, UInt64.le_iff_toNat_le, toNat_add_of_lt (by simp; omega)]
    simp
    omega
  -- the check sees the range's last index modulo 2^32, which is that index
  have hg₂ : ¬ (ptr + len - 1).toUInt64 ≥ memSize := by
    rw [ge_iff_le, UInt64.le_iff_toNat_le, UInt32.toNat_toUInt64]
    simp only [UInt32.toNat_sub, UInt32.toNat_add, UInt32.toNat_one, Nat.reducePow]
    omega
  rw [readCustomListOfString, if_neg hg₁, hptr, hlen]
  simp only [bind, Except.bind, if_neg hg₂]

end Lists

/-- A memory of 2^32 bytes whose string record at 0 names the 2^32 - 1
bytes from index 1. -/
def fullRangeRecord : Nat → UInt8 := fun i => if i = 0 then 1 else if i < 4 then 0 else 0xFF

/-- The record's range ends inside the memory, so both checks pass; the
count's `+ 1` wraps to 0, and copying the range overruns the temporary
string. -/
theorem readCustomString_overruns_reserve :
    readUint32 fullRangeRecord (2 ^ 32) 0 = .ok 1 ∧
    readUint32 fullRangeRecord (2 ^ 32) 4 = .ok 0xFFFFFFFF ∧
    readCustomString fullRangeRecord (2 ^ 32) 0 = .error .storageOverflow := by
  decide

end WasmDeserializer

end ControlPlane.Roma
