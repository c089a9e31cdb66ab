import ControlPlane.Roma.WasmSerializer

/-!
# Lists of strings in WASM memory, and the arguments of a call

`WriteCustomListOfString` (src/cc/roma/wasm/src/serializer.cc) lays a list
out as its strings one after the other, each as its image, then the array
of the pointers to their records, then its own record: the pointer to the
array and the count. `listImage` is that layout, and the room it takes is
`ComputeMemorySizeFor` of the list.

`ExecutionUtils::ParseAsWasmInput` (src/cc/roma/worker/src/execution_utils.cc)
writes the string and list arguments of a call one after the other from
offset 0 and passes the call their pointers. Each write succeeds when its
room fits, but for the one that puts an empty string at offset 0; what the
call receives then reads back as what was written, each string with a first
byte 0 read as the empty string.
-/

namespace ControlPlane.Roma

open Memory

namespace WasmSerializer

/-- The strings of a list one after the other from `offset`, each as its
image. -/
def stringsImage : Nat → List (List UInt8) → List UInt8
  | _, [] => []
  | offset, str :: rest =>
      stringImage offset str ++
        stringsImage (offset + RomaWasmStringRepresentation.computeMemorySizeFor str) rest

/-- The offsets of the strings' records when the strings are laid out from
`offset`. -/
def recordOffsets : Nat → List (List UInt8) → List Nat
  | _, [] => []
  | offset, str :: rest =>
      (offset + str.length) ::
        recordOffsets (offset + RomaWasmStringRepresentation.computeMemorySizeFor str) rest

/-- The room of the strings of a list alone. -/
def stringsSize (list : List (List UInt8)) : Nat :=
  (list.map RomaWasmStringRepresentation.computeMemorySizeFor).sum

/-- The bytes of a list at `offset`: its strings, the pointers to their
records, and its own record. -/
def listImage (offset : Nat) (list : List (List UInt8)) : List UInt8 :=
  stringsImage offset list ++ (recordOffsets offset list).flatMap (bytes 4) ++
    bytes 4 (offset + stringsSize list) ++ bytes 4 list.length

@[simp] theorem stringsSize_nil : stringsSize [] = 0 := rfl

@[simp] theorem stringsSize_cons (str : List UInt8) (rest : List (List UInt8)) :
    stringsSize (str :: rest) =
      RomaWasmStringRepresentation.computeMemorySizeFor str + stringsSize rest := by
  simp [stringsSize]

@[simp] theorem length_stringsImage (offset : Nat) (list : List (List UInt8)) :
    (stringsImage offset list).length = stringsSize list := by
  induction list generalizing offset with
  | nil => rfl
  | cons str rest ih => simp [stringsImage, ih]

@[simp] theorem length_recordOffsets (offset : Nat) (list : List (List UInt8)) :
    (recordOffsets offset list).length = list.length := by
  induction list generalizing offset with
  | nil => rfl
  | cons str rest ih => simp [recordOffsets, ih]

theorem length_flatMap_bytes (rs : List Nat) : (rs.flatMap (bytes 4)).length = 4 * rs.length := by
  induction rs with
  | nil => rfl
  | cons r rs ih =>
      rw [List.flatMap_cons, List.length_append, ih, length_bytes, List.length_cons]
      omega

theorem length_listImage (offset : Nat) (list : List (List UInt8)) :
    (listImage offset list).length =
      RomaWasmListOfStringRepresentation.computeMemorySizeFor list := by
  simp only [listImage, List.length_append, length_stringsImage, length_flatMap_bytes,
    length_recordOffsets, length_bytes, RomaWasmListOfStringRepresentation.computeMemorySizeFor,
    stringsSize]
  omega

/-- The room of a list is that of its strings, its pointers and its record. -/
theorem computeMemorySizeFor_list (list : List (List UInt8)) :
    RomaWasmListOfStringRepresentation.computeMemorySizeFor list =
      stringsSize list + 4 * list.length + 8 := by
  unfold RomaWasmListOfStringRepresentation.computeMemorySizeFor stringsSize
  omega

/-! ## Writing a list -/

section Lists

variable {memSize : UInt64}

/-- The string at `offset` that is not the empty one at offset 0. -/
theorem pos_of_head {offset : Nat} {str : List UInt8} {rest : List (List UInt8)}
    (hne : 0 < offset ∨ (str :: rest).head? ≠ some []) : 0 < offset + str.length := by
  rcases hne with h | h
  · omega
  · have hstr : str ≠ [] := fun hs => h (by rw [hs]; rfl)
    have := List.length_pos_of_ne_nil hstr
    omega

theorem toNat_add_size {offset : UInt64} {n : Nat} (h : offset.toNat + n < 2 ^ 64) :
    (offset + n.toUInt64).toNat = offset.toNat + n := by
  have hn : n.toUInt64.toNat = n := by
    simp only [Nat.toUInt64, UInt64.toNat_ofNat']
    exact Nat.mod_eq_of_lt (by omega)
  rw [WasmDeserializer.toNat_add_of_lt (by rw [hn]; exact h), hn]

/-- With the strings' room inside the memory, and no empty string first at
offset 0, every string is written as its image, one after the other, and
the offset moves past them. -/
theorem writeStrings_of_le (hm : memSize.toNat ≤ 2 ^ 32) (list : List (List UInt8))
    {mem : Nat → UInt8} {offset : UInt64} {stringPtrs : List UInt32}
    (hfit : offset.toNat + stringsSize list ≤ memSize.toNat)
    (hne : 0 < offset.toNat ∨ list.head? ≠ some []) :
    writeStrings memSize mem list offset stringPtrs =
      (some (stringPtrs ++ (recordOffsets offset.toNat list).map UInt32.ofNat,
          UInt64.ofNat (offset.toNat + stringsSize list)),
        write mem offset.toNat (stringsImage offset.toNat list)) := by
  induction list generalizing mem offset stringPtrs with
  | nil => simp [writeStrings, recordOffsets, stringsImage]
  | cons str rest ih =>
      rw [stringsSize_cons] at hfit
      have hsize := memSize.toNat_lt
      have hroom : RomaWasmStringRepresentation.computeMemorySizeFor str = str.length + 8 := rfl
      have hstr := pos_of_head hne
      have hnext : (offset + (RomaWasmStringRepresentation.computeMemorySizeFor str).toUInt64).toNat =
          offset.toNat + RomaWasmStringRepresentation.computeMemorySizeFor str :=
        toNat_add_size (by omega)
      rw [writeStrings, writeCustomString_of_le (by omega) hstr]
      dsimp only
      rw [if_neg (ofNat_ne_max (by omega)), ih (by rw [hnext]; omega) (.inl (by rw [hnext]; omega)),
        hnext]
      simp [recordOffsets, stringsImage, write_append, Nat.add_assoc]

/-- Pointers whose room fits are written 4 bytes each, one after the other. -/
theorem writePointers_of_le (ptrs : List UInt32) {mem : Nat → UInt8} {offset : UInt64}
    (hfit : offset.toNat + 4 * ptrs.length ≤ memSize.toNat) :
    writePointers memSize mem ptrs offset =
      (some (UInt64.ofNat (offset.toNat + 4 * ptrs.length)),
        write mem offset.toNat (ptrs.flatMap fun p => bytes 4 p.toNat)) := by
  induction ptrs generalizing mem offset with
  | nil => simp [writePointers]
  | cons p ps ih =>
      rw [List.length_cons] at hfit
      have hsize := memSize.toNat_lt
      have hnext : (offset + 4).toNat = offset.toNat + 4 :=
        WasmDeserializer.toNat_add_of_lt (by simp; omega)
      rw [writePointers, writeUint32_of_le (by omega)]
      dsimp only
      rw [if_pos rfl, ih (by rw [hnext]; omega), hnext, List.length_cons, List.flatMap_cons,
        write_append, length_bytes, Nat.add_assoc, Nat.mul_succ, Nat.add_comm (4 * ps.length)]

/-- The pointers `WriteStrings` collects are those of the records. -/
theorem flatMap_bytes_recordOffsets (offset : Nat) (list : List (List UInt8)) :
    ((recordOffsets offset list).map UInt32.ofNat).flatMap (fun p => bytes 4 p.toNat) =
      (recordOffsets offset list).flatMap (bytes 4) := by
  rw [List.flatMap_map]
  congr 1
  funext r
  rw [UInt32.toNat_ofNat']
  exact bytes_mod 4 r

/-- A list whose room fits, with no empty string first at offset 0, is
written as its image, and the offset of its record returned. -/
theorem writeCustomListOfString_of_le (hm : memSize.toNat ≤ 2 ^ 32) {mem : Nat → UInt8}
    {offset : UInt64} {list : List (List UInt8)}
    (hfit : offset.toNat + RomaWasmListOfStringRepresentation.computeMemorySizeFor list ≤
      memSize.toNat)
    (hne : 0 < offset.toNat ∨ list.head? ≠ some []) :
    writeCustomListOfString mem memSize offset list =
      (UInt32.ofNat (offset.toNat + stringsSize list + 4 * list.length),
        write mem offset.toNat (listImage offset.toNat list)) := by
  rw [computeMemorySizeFor_list] at hfit
  have hsize := memSize.toNat_lt
  have harray : (UInt64.ofNat (offset.toNat + stringsSize list)).toNat =
      offset.toNat + stringsSize list := by
    rw [UInt64.toNat_ofNat', Nat.mod_eq_of_lt (by omega)]
  have hrecord : (UInt64.ofNat (offset.toNat + stringsSize list + 4 * list.length)).toNat =
      offset.toNat + stringsSize list + 4 * list.length := by
    rw [UInt64.toNat_ofNat', Nat.mod_eq_of_lt (by omega)]
  have hrecord4 : (UInt64.ofNat (offset.toNat + stringsSize list + 4 * list.length) + 4).toNat =
      offset.toNat + stringsSize list + 4 * list.length + 4 := by
    rw [WasmDeserializer.toNat_add_of_lt (by rw [hrecord]; simp; omega), hrecord]
    rfl
  -- the record holds the array's offset and the count, each in 4 bytes
  have harrayPtr : bytes 4 (UInt64.ofNat (offset.toNat + stringsSize list)).toUInt32.toNat =
      bytes 4 (offset.toNat + stringsSize list) := by
    rw [UInt64.toNat_toUInt32, harray]
    exact bytes_mod 4 _
  have hcount : bytes 4 list.length.toUInt32.toNat = bytes 4 list.length := by
    simp only [Nat.toUInt32, UInt32.toNat_ofNat']
    exact bytes_mod 4 _
  rw [writeCustomListOfString, writeStrings_of_le hm list (by omega) hne]
  dsimp only
  rw [writePointers_of_le _ (by simp only [List.nil_append, List.length_map,
    length_recordOffsets, harray]; omega)]
  dsimp only
  simp only [List.nil_append, List.length_map, length_recordOffsets, harray]
  rw [writeUint32_of_le (by rw [hrecord]; omega)]
  dsimp only
  rw [if_pos rfl, writeUint32_of_le (by rw [hrecord4]; omega)]
  dsimp only
  rw [Bool.not_true, if_neg Bool.false_ne_true]
  congr 1
  · apply UInt32.toNat_inj.mp
    rw [UInt64.toNat_toUInt32, hrecord, UInt32.toNat_ofNat']
  · rw [hrecord, hrecord4, harrayPtr, hcount, flatMap_bytes_recordOffsets, listImage, write_append,
      write_append, write_append]
    simp only [List.length_append, length_stringsImage, length_flatMap_bytes, length_recordOffsets,
      length_bytes, Nat.add_assoc]

/-- Strings whose room does not fit fail. -/
theorem writeStrings_of_lt (hm : memSize.toNat ≤ 2 ^ 32) (list : List (List UInt8))
    {mem : Nat → UInt8} {offset : UInt64} {stringPtrs : List UInt32}
    (hs : ∀ str ∈ list, str.length < 2 ^ 64) (hlist : list ≠ [])
    (hlt : memSize.toNat < offset.toNat + stringsSize list) :
    (writeStrings memSize mem list offset stringPtrs).1 = none := by
  induction list generalizing mem offset stringPtrs with
  | nil => exact absurd rfl hlist
  | cons str rest ih =>
      rw [stringsSize_cons] at hlt
      have hsize := memSize.toNat_lt
      have hroom : RomaWasmStringRepresentation.computeMemorySizeFor str = str.length + 8 := rfl
      rw [writeStrings]
      by_cases hstr : offset.toNat + RomaWasmStringRepresentation.computeMemorySizeFor str ≤
          memSize.toNat ∧ 0 < offset.toNat + str.length
      · -- the string is written, and the rest does not fit after it
        have hnext : (offset + (RomaWasmStringRepresentation.computeMemorySizeFor str).toUInt64).toNat =
            offset.toNat + RomaWasmStringRepresentation.computeMemorySizeFor str :=
          toNat_add_size (by omega)
        have hrest : rest ≠ [] := by
          rintro rfl
          rw [stringsSize_nil] at hlt
          omega
        rw [writeCustomString_of_le hstr.1 hstr.2]
        dsimp only
        rw [if_neg (ofNat_ne_max (by omega))]
        exact ih (fun s hmem => hs s (List.mem_cons_of_mem _ hmem)) hrest (by rw [hnext]; omega)
      · have hfail : (writeCustomString mem memSize offset str).1 = 0xFFFFFFFF :=
          not_not.mp (mt (writeCustomString_succeeds_iff hm offset (hs str (by simp))).mp hstr)
        generalize writeCustomString mem memSize offset str = w at hfail ⊢
        obtain ⟨strPtr, mem₁⟩ := w
        dsimp only at hfail ⊢
        rw [if_pos hfail]

/-- An empty string first at offset 0 fails. -/
theorem writeStrings_zero_nil {mem : Nat → UInt8} (rest : List (List UInt8))
    (stringPtrs : List UInt32) : (writeStrings memSize mem ([] :: rest) 0 stringPtrs).1 = none := by
  have hfail : (writeCustomString mem memSize 0 []).1 = 0xFFFFFFFF := writeCustomString_zero_nil
  rw [writeStrings]
  generalize writeCustomString mem memSize 0 [] = w at hfail ⊢
  obtain ⟨strPtr, mem₁⟩ := w
  dsimp only at hfail ⊢
  rw [if_pos hfail]

/-- Pointers whose room does not fit fail. -/
theorem writePointers_of_lt (hm : memSize.toNat ≤ 2 ^ 32) (ptrs : List UInt32) {mem : Nat → UInt8}
    {offset : UInt64} (hptrs : ptrs ≠ []) (hlt : memSize.toNat < offset.toNat + 4 * ptrs.length) :
    (writePointers memSize mem ptrs offset).1 = none := by
  induction ptrs generalizing mem offset with
  | nil => exact absurd rfl hptrs
  | cons p ps ih =>
      rw [List.length_cons] at hlt
      have hsize := memSize.toNat_lt
      rw [writePointers]
      by_cases h4 : offset.toNat + 4 ≤ memSize.toNat
      · have hnext : (offset + 4).toNat = offset.toNat + 4 :=
          WasmDeserializer.toNat_add_of_lt (by simp; omega)
        have hps : ps ≠ [] := by
          rintro rfl
          rw [List.length_nil] at hlt
          omega
        rw [writeUint32_of_le h4]
        dsimp only
        rw [if_pos rfl]
        exact ih hps (by rw [hnext]; omega)
      · rw [writeUint32_of_not_le hm h4]
        rfl

/-- When `WriteStrings` succeeds, the offset has moved past the strings
and the pointers are those of their records. -/
theorem writeStrings_of_eq_some (hm : memSize.toNat ≤ 2 ^ 32) (list : List (List UInt8))
    {mem : Nat → UInt8} {offset next : UInt64} {stringPtrs ptrs : List UInt32}
    (hs : ∀ str ∈ list, str.length < 2 ^ 64)
    (h : (writeStrings memSize mem list offset stringPtrs).1 = some (ptrs, next)) :
    next.toNat = offset.toNat + stringsSize list ∧
      ptrs = stringPtrs ++ (recordOffsets offset.toNat list).map UInt32.ofNat ∧
      (list = [] ∨ offset.toNat + stringsSize list ≤ memSize.toNat) ∧
      (0 < offset.toNat ∨ list.head? ≠ some []) := by
  by_cases hlist : list = []
  · subst hlist
    simp only [writeStrings, Option.some.injEq, Prod.mk.injEq] at h
    obtain ⟨rfl, rfl⟩ := h
    simp [recordOffsets]
  have hsize := memSize.toNat_lt
  have hfit : offset.toNat + stringsSize list ≤ memSize.toNat := by
    by_contra hn
    rw [writeStrings_of_lt hm list hs hlist (by omega)] at h
    cases h
  have hne : 0 < offset.toNat ∨ list.head? ≠ some [] := by
    by_contra hn
    rw [not_or, Nat.not_lt, not_not] at hn
    obtain ⟨ho, hhead⟩ := hn
    obtain ⟨rest, rfl⟩ : ∃ rest, list = [] :: rest := by
      cases list with
      | nil => exact absurd rfl hlist
      | cons str rest => exact ⟨rest, by simp at hhead; rw [hhead]⟩
    have hzero : offset = 0 := UInt64.toNat_inj.mp (by simp; omega)
    subst hzero
    rw [writeStrings_zero_nil] at h
    cases h
  rw [writeStrings_of_le hm list hfit hne] at h
  simp only [Option.some.injEq, Prod.mk.injEq] at h
  obtain ⟨rfl, rfl⟩ := h
  refine ⟨?_, rfl, .inr hfit, hne⟩
  rw [UInt64.toNat_ofNat', Nat.mod_eq_of_lt (by omega)]

/-- When `WritePointers` succeeds, the offset has moved past the pointers. -/
theorem writePointers_of_eq_some (hm : memSize.toNat ≤ 2 ^ 32) (ptrs : List UInt32)
    {mem : Nat → UInt8} {offset next : UInt64}
    (h : (writePointers memSize mem ptrs offset).1 = some next) :
    next.toNat = offset.toNat + 4 * ptrs.length ∧
      (ptrs = [] ∨ offset.toNat + 4 * ptrs.length ≤ memSize.toNat) := by
  by_cases hptrs : ptrs = []
  · subst hptrs
    simp only [writePointers, Option.some.injEq] at h
    subst h
    simp
  have hsize := memSize.toNat_lt
  have hfit : offset.toNat + 4 * ptrs.length ≤ memSize.toNat := by
    by_contra hn
    rw [writePointers_of_lt hm ptrs hptrs (by omega)] at h
    cases h
  rw [writePointers_of_le ptrs hfit, Option.some.injEq] at h
  subst h
  refine ⟨?_, .inr hfit⟩
  rw [UInt64.toNat_ofNat', Nat.mod_eq_of_lt (by omega)]

/-- `WriteCustomListOfString` succeeds exactly when the list's room fits the
memory, except for a list whose first string is empty at offset 0. -/
theorem writeCustomListOfString_succeeds_iff (hm : memSize.toNat ≤ 2 ^ 32) (mem : Nat → UInt8)
    (offset : UInt64) {list : List (List UInt8)} (hs : ∀ str ∈ list, str.length < 2 ^ 64) :
    (writeCustomListOfString mem memSize offset list).1 ≠ 0xFFFFFFFF ↔
      offset.toNat + RomaWasmListOfStringRepresentation.computeMemorySizeFor list ≤
          memSize.toNat ∧
        (0 < offset.toNat ∨ list.head? ≠ some []) := by
  have hsize := memSize.toNat_lt
  constructor
  · intro h
    rw [writeCustomListOfString] at h
    generalize hw : writeStrings memSize mem list offset [] = w at h
    obtain ⟨r, mem₁⟩ := w
    cases r with
    | none => exact absurd rfl h
    | some r =>
        obtain ⟨ptrs, next⟩ := r
        obtain ⟨hnext, hptrs, -, hne⟩ := writeStrings_of_eq_some hm list hs (by rw [hw])
        dsimp only at h
        generalize hw₂ : writePointers memSize mem₁ ptrs next = w₂ at h
        obtain ⟨r₂, mem₂⟩ := w₂
        cases r₂ with
        | none => exact absurd rfl h
        | some next₂ =>
            obtain ⟨hnext₂, -⟩ := writePointers_of_eq_some hm ptrs (by rw [hw₂])
            have hlen : ptrs.length = list.length := by simp [hptrs]
            refine ⟨?_, hne⟩
            -- a record that does not fit fails, at its first or its second half
            rw [computeMemorySizeFor_list]
            by_contra hn
            apply h
            dsimp only
            by_cases h4 : next₂.toNat + 4 ≤ memSize.toNat
            · have h4' : (next₂ + 4).toNat = next₂.toNat + 4 :=
                WasmDeserializer.toNat_add_of_lt (by simp; omega)
              rw [writeUint32_of_le h4]
              dsimp only
              rw [if_pos rfl, writeUint32_of_not_le hm (by rw [h4']; omega)]
              rfl
            · rw [writeUint32_of_not_le hm h4]
              rfl
  · rintro ⟨hfit, hne⟩
    rw [writeCustomListOfString_of_le hm hfit hne]
    rw [computeMemorySizeFor_list] at hfit
    exact ofNat_ne_max (by omega)

/-- `WriteStrings` writes nothing outside the strings' room. -/
theorem writeStrings_unchanged (hm : memSize.toNat ≤ 2 ^ 32) (list : List (List UInt8))
    (mem : Nat → UInt8) (offset : UInt64) (stringPtrs : List UInt32)
    (hs : ∀ str ∈ list, str.length < 2 ^ 64) :
    Unchanged offset.toNat (offset.toNat + stringsSize list) mem
      (writeStrings memSize mem list offset stringPtrs).2 := by
  induction list generalizing mem offset stringPtrs with
  | nil => exact Unchanged.refl _ _ _
  | cons str rest ih =>
      rw [stringsSize_cons]
      have hsize := memSize.toNat_lt
      have hstr := writeCustomString_unchanged hm mem offset (hs str (by simp))
      have hok : (writeCustomString mem memSize offset str).1 ≠ 0xFFFFFFFF →
          offset.toNat + RomaWasmStringRepresentation.computeMemorySizeFor str ≤ memSize.toNat ∧
            0 < offset.toNat + str.length :=
        (writeCustomString_succeeds_iff hm offset (hs str (by simp))).mp
      rw [writeStrings]
      generalize writeCustomString mem memSize offset str = w at hstr hok ⊢
      obtain ⟨strPtr, mem₁⟩ := w
      dsimp only at hstr hok ⊢
      by_cases hfail : strPtr = 0xFFFFFFFF
      · rw [if_pos hfail]
        exact hstr.mono (Nat.le_refl _) (by omega)
      · -- the string was written inside the memory; the rest goes after it
        rw [if_neg hfail]
        have hfit := (hok hfail).1
        have hnext : (offset + (RomaWasmStringRepresentation.computeMemorySizeFor str).toUInt64).toNat =
            offset.toNat + RomaWasmStringRepresentation.computeMemorySizeFor str :=
          toNat_add_size (by omega)
        have hrest := ih mem₁ (offset + (RomaWasmStringRepresentation.computeMemorySizeFor str).toUInt64)
          (stringPtrs ++ [strPtr]) (fun s hmem => hs s (List.mem_cons_of_mem _ hmem))
        rw [hnext] at hrest
        have hfirst : Unchanged offset.toNat (offset.toNat +
            (RomaWasmStringRepresentation.computeMemorySizeFor str + stringsSize rest)) mem mem₁ :=
          hstr.mono (Nat.le_refl _) (by omega)
        exact hfirst.trans (hrest.mono (by omega) (by omega))

/-- `WritePointers` writes nothing outside the pointers' room. -/
theorem writePointers_unchanged (hm : memSize.toNat ≤ 2 ^ 32) (ptrs : List UInt32)
    (mem : Nat → UInt8) (offset : UInt64) :
    Unchanged offset.toNat (offset.toNat + 4 * ptrs.length) mem
      (writePointers memSize mem ptrs offset).2 := by
  induction ptrs generalizing mem offset with
  | nil => exact Unchanged.refl _ _ _
  | cons p ps ih =>
      rw [List.length_cons]
      have hsize := memSize.toNat_lt
      rw [writePointers]
      by_cases h4 : offset.toNat + 4 ≤ memSize.toNat
      · have hnext : (offset + 4).toNat = offset.toNat + 4 :=
          WasmDeserializer.toNat_add_of_lt (by simp; omega)
        rw [writeUint32_of_le h4]
        dsimp only
        rw [if_pos rfl]
        have hrest := ih (write mem offset.toNat (bytes 4 p.toNat)) (offset + 4)
        rw [hnext] at hrest
        have hfirst : Unchanged offset.toNat (offset.toNat + 4 * (ps.length + 1)) mem
            (write mem offset.toNat (bytes 4 p.toNat)) :=
          (unchanged_write mem offset.toNat (bytes 4 p.toNat)).mono (Nat.le_refl _)
            (by rw [length_bytes]; omega)
        exact hfirst.trans (hrest.mono (by omega) (by omega))
      · rw [writeUint32_of_not_le hm h4]
        exact Unchanged.refl _ _ _

/-- `WriteCustomListOfString` writes nothing outside the list's room. -/
theorem writeCustomListOfString_unchanged (hm : memSize.toNat ≤ 2 ^ 32) (mem : Nat → UInt8)
    (offset : UInt64) {list : List (List UInt8)} (hs : ∀ str ∈ list, str.length < 2 ^ 64) :
    Unchanged offset.toNat
      (offset.toNat + RomaWasmListOfStringRepresentation.computeMemorySizeFor list) mem
      (writeCustomListOfString mem memSize offset list).2 := by
  rw [computeMemorySizeFor_list]
  have hsize := memSize.toNat_lt
  have hstrs := writeStrings_unchanged hm list mem offset [] hs
  rw [writeCustomListOfString]
  generalize hw : writeStrings memSize mem list offset [] = w at hstrs
  obtain ⟨r, mem₁⟩ := w
  dsimp only at hstrs
  have hall₁ : Unchanged offset.toNat (offset.toNat + (stringsSize list + 4 * list.length + 8))
      mem mem₁ := hstrs.mono (Nat.le_refl _) (by omega)
  cases r with
  | none => exact hall₁
  | some r =>
      -- the strings are in place: the pointers go after them
      obtain ⟨ptrs, next⟩ := r
      obtain ⟨hnext, hptrs, -, -⟩ := writeStrings_of_eq_some hm list hs (by rw [hw])
      have hlen : ptrs.length = list.length := by simp [hptrs]
      dsimp only
      have hptrsU := writePointers_unchanged hm ptrs mem₁ next
      generalize hw₂ : writePointers memSize mem₁ ptrs next = w₂ at hptrsU
      obtain ⟨r₂, mem₂⟩ := w₂
      dsimp only at hptrsU
      have hall₂ : Unchanged offset.toNat (offset.toNat + (stringsSize list + 4 * list.length + 8))
          mem mem₂ := hall₁.trans (hptrsU.mono (by omega) (by omega))
      cases r₂ with
      | none => exact hall₂
      | some next₂ =>
          -- and the record after the pointers, its second half only when the first fits
          obtain ⟨hnext₂, -⟩ := writePointers_of_eq_some hm ptrs (by rw [hw₂])
          dsimp only
          have hrec₁ := writeUint32_unchanged hm mem₂ next₂ next.toUInt32
          have hok : (writeUint32 mem₂ memSize next₂ next.toUInt32).1 = true →
              next₂.toNat + 4 ≤ memSize.toNat := by
            intro hw₃
            by_contra hn
            rw [writeUint32_of_not_le hm hn] at hw₃
            cases hw₃
          generalize writeUint32 mem₂ memSize next₂ next.toUInt32 = w₃ at hrec₁ hok
          obtain ⟨worked, mem₃⟩ := w₃
          dsimp only at hrec₁ hok ⊢
          have hall₃ : Unchanged offset.toNat
              (offset.toNat + (stringsSize list + 4 * list.length + 8)) mem mem₃ :=
            hall₂.trans (hrec₁.mono (by omega) (by omega))
          cases worked
          · simp only [Bool.false_eq_true, ↓reduceIte]
            exact hall₃
          · have h4 := hok rfl
            have h4' : (next₂ + 4).toNat = next₂.toNat + 4 :=
              WasmDeserializer.toNat_add_of_lt (by simp; omega)
            have hrec₂ := writeUint32_unchanged hm mem₃ (next₂ + 4) (ptrs.length.toUInt32)
            rw [h4'] at hrec₂
            have hall : Unchanged offset.toNat
                (offset.toNat + (stringsSize list + 4 * list.length + 8)) mem
                (writeUint32 mem₃ memSize (next₂ + 4) ptrs.length.toUInt32).2 :=
              hall₃.trans (hrec₂.mono (by omega) (by omega))
            simp only [↓reduceIte]
            split <;> exact hall

end Lists

/-! ## Reading a list back -/

section Reading

variable {mem : Nat → UInt8} {memSize : UInt64}

/-- A `uint32` read from its 4 bytes is the number modulo 2^32. -/
theorem ofNat_value_bytes_four_eq (n : Nat) : UInt32.ofNat (value (bytes 4 n)) = UInt32.ofNat n := by
  apply UInt32.toNat_inj.mp
  rw [UInt32.toNat_ofNat', UInt32.toNat_ofNat', value_bytes]
  exact Nat.mod_mod_of_dvd n (by decide)

theorem toUInt64_ofNat {n : Nat} (h : n < 2 ^ 32) : (UInt32.ofNat n).toUInt64 = UInt64.ofNat n := by
  apply UInt64.toNat_inj.mp
  rw [UInt32.toNat_toUInt64, UInt32.toNat_ofNat', UInt64.toNat_ofNat', Nat.mod_eq_of_lt h,
    Nat.mod_eq_of_lt (by omega)]

theorem toNat_ofNat_of_lt {n : Nat} (h : n < 2 ^ 32) : (UInt32.ofNat n).toNat = n := by
  rw [UInt32.toNat_ofNat', Nat.mod_eq_of_lt h]

/-- Over strings laid out as their images and an array of the pointers to
their records, the loop of `ReadCustomListOfString` reads each string back,
one with a first byte 0 as the empty string. -/
theorem readStrings_of_image (hm : memSize.toNat ≤ 2 ^ 32) (list : List (List UInt8))
    {offset array : Nat} (output : List (List UInt8))
    (hfit : offset + stringsSize list ≤ memSize.toNat)
    (harray : array + 4 * list.length ≤ memSize.toNat)
    (hne : 0 < offset ∨ list.head? ≠ some [])
    (hstrs : read mem offset (stringsSize list) = stringsImage offset list)
    (hptrs : read mem array (4 * list.length) = (recordOffsets offset list).flatMap (bytes 4)) :
    WasmDeserializer.readStrings mem memSize list.length (UInt64.ofNat array) output =
      .ok (output ++ list.map fun str => if str.headD 0 = 0 then [] else str) := by
  induction list generalizing offset array output with
  | nil => simp [WasmDeserializer.readStrings, pure, Except.pure]
  | cons str rest ih =>
      rw [stringsSize_cons] at hfit
      rw [List.length_cons] at harray
      have hsize := memSize.toNat_lt
      have hroom : RomaWasmStringRepresentation.computeMemorySizeFor str = str.length + 8 := rfl
      -- the first string's image and pointer, then those of the rest
      rw [stringsImage] at hstrs
      obtain ⟨himg, hrestImg⟩ := read_append_eq hstrs
      rw [length_stringImage] at himg hrestImg
      rw [length_stringsImage] at hrestImg
      rw [recordOffsets, List.flatMap_cons] at hptrs
      obtain ⟨hptr, hrestPtrs⟩ := read_append_eq hptrs
      rw [length_bytes] at hptr hrestPtrs
      rw [length_flatMap_bytes, length_recordOffsets] at hrestPtrs
      have hat : (UInt64.ofNat array).toNat = array := by
        rw [UInt64.toNat_ofNat', Nat.mod_eq_of_lt (by omega)]
      have hnext : UInt64.ofNat array + 4 = UInt64.ofNat (array + 4) := by
        apply UInt64.toNat_inj.mp
        rw [WasmDeserializer.toNat_add_of_lt (by rw [hat]; simp; omega), hat,
          UInt64.toNat_ofNat', Nat.mod_eq_of_lt (by omega)]
        rfl
      have hg : ¬ UInt64.ofNat array + 3 ≥ memSize := by
        rw [ge_iff_le, UInt64.le_iff_toNat_le,
          WasmDeserializer.toNat_add_of_lt (by rw [hat]; simp; omega), hat]
        simp
        omega
      rw [List.length_cons, WasmDeserializer.readStrings, if_neg hg,
        WasmDeserializer.readUint32_of_le (by rw [hat]; omega), hat, hptr]
      simp only [bind, Except.bind]
      rw [ofNat_value_bytes_four_eq, toUInt64_ofNat (by omega),
        readCustomString_of_image hm (by omega) (pos_of_head hne) himg]
      simp only [hnext]
      rw [ih _ (by omega) (by omega) (.inl (by omega)) hrestImg hrestPtrs]
      simp

/-- Wherever the image of a list sits inside the memory, `ReadCustomListOfString`
at its record gives the list back, each string with a first byte 0 as the
empty string. -/
theorem readCustomListOfString_of_image (hm : memSize.toNat ≤ 2 ^ 32) {offset : Nat}
    {list : List (List UInt8)}
    (hfit : offset + RomaWasmListOfStringRepresentation.computeMemorySizeFor list ≤ memSize.toNat)
    (hne : 0 < offset ∨ list.head? ≠ some [])
    (himg : read mem offset (RomaWasmListOfStringRepresentation.computeMemorySizeFor list) =
      listImage offset list) :
    WasmDeserializer.readCustomListOfString mem memSize
        (UInt64.ofNat (offset + stringsSize list + 4 * list.length)) [] =
      .ok (list.map fun str => if str.headD 0 = 0 then [] else str) := by
  rw [computeMemorySizeFor_list] at hfit
  have hsize := memSize.toNat_lt
  -- the image's four parts: the strings, the pointers, and the record's two halves
  rw [listImage] at himg
  obtain ⟨h123, hcount⟩ := read_append_eq himg
  obtain ⟨h12, harray⟩ := read_append_eq h123
  obtain ⟨hstrs, hptrs⟩ := read_append_eq h12
  simp only [List.length_append, length_stringsImage, length_flatMap_bytes, length_recordOffsets,
    length_bytes, ← Nat.add_assoc] at hcount harray hptrs hstrs
  have hrecord : (UInt64.ofNat (offset + stringsSize list + 4 * list.length)).toNat =
      offset + stringsSize list + 4 * list.length := by
    rw [UInt64.toNat_ofNat', Nat.mod_eq_of_lt (by omega)]
  have hrecord4 : (UInt64.ofNat (offset + stringsSize list + 4 * list.length) + 4).toNat =
      offset + stringsSize list + 4 * list.length + 4 := by
    rw [WasmDeserializer.toNat_add_of_lt (by rw [hrecord]; simp; omega), hrecord]
    rfl
  have hptrVal : WasmDeserializer.readUint32 mem memSize
      (UInt64.ofNat (offset + stringsSize list + 4 * list.length)) =
        .ok (UInt32.ofNat (offset + stringsSize list)) := by
    rw [WasmDeserializer.readUint32_of_le (by rw [hrecord]; omega), hrecord, harray,
      ofNat_value_bytes_four_eq]
  have hlenVal : WasmDeserializer.readUint32 mem memSize
      (UInt64.ofNat (offset + stringsSize list + 4 * list.length) + 4) =
        .ok (UInt32.ofNat list.length) := by
    rw [WasmDeserializer.readUint32_of_le (by rw [hrecord4]; omega), hrecord4, hcount,
      ofNat_value_bytes_four_eq]
  by_cases hlist : list = []
  · -- an empty list: whichever way the check goes, the read gives the empty list
    have hg : ¬ UInt64.ofNat (offset + stringsSize list + 4 * list.length) + 7 ≥ memSize := by
      rw [ge_iff_le, UInt64.le_iff_toNat_le,
        WasmDeserializer.toNat_add_of_lt (by rw [hrecord]; simp; omega), hrecord]
      simp
      omega
    rw [WasmDeserializer.readCustomListOfString, if_neg hg, hptrVal, hlenVal]
    subst hlist
    simp only [bind, Except.bind]
    split <;> rfl
  · have hpos := List.length_pos_of_ne_nil hlist
    rw [WasmDeserializer.readCustomListOfString_of_record [] (by rw [hrecord]; omega) hptrVal
      hlenVal (by rw [toNat_ofNat_of_lt (by omega), toNat_ofNat_of_lt (by omega)]; omega)
      (by rw [toNat_ofNat_of_lt (by omega)]; omega),
      toNat_ofNat_of_lt (by omega), toUInt64_ofNat (by omega)]
    rw [readStrings_of_image hm list [] (by omega) (by omega) hne hstrs hptrs, List.nil_append]

/-- What `WriteCustomListOfString` wrote, `ReadCustomListOfString` at the
pointer it returned reads back, each string with a first byte 0 as the
empty string. -/
theorem readCustomListOfString_writeCustomListOfString (hm : memSize.toNat ≤ 2 ^ 32)
    {offset : UInt64} {list : List (List UInt8)}
    (hfit : offset.toNat + RomaWasmListOfStringRepresentation.computeMemorySizeFor list ≤
      memSize.toNat)
    (hne : 0 < offset.toNat ∨ list.head? ≠ some []) :
    WasmDeserializer.readCustomListOfString (writeCustomListOfString mem memSize offset list).2
        memSize (writeCustomListOfString mem memSize offset list).1.toUInt64 [] =
      .ok (list.map fun str => if str.headD 0 = 0 then [] else str) := by
  have hroom := computeMemorySizeFor_list list
  rw [writeCustomListOfString_of_le hm hfit hne, toUInt64_ofNat (by omega)]
  exact readCustomListOfString_of_image hm hfit hne
    (by rw [← length_listImage offset.toNat list]; exact read_write_self _ _ _)

end Reading

end WasmSerializer

/-! ## The arguments of a call -/

/-- An argument once `ParseAsJsInput` has parsed it from JSON: a number that
is a `uint32` or an `int32`, a string, an array of strings, or anything
else, which `ParseAsWasmInput` does not support. -/
inductive WasmArgument
  | integer (value : Int)
  | string (value : List UInt8)
  | listOfString (value : List (List UInt8))
  | unsupported
  deriving DecidableEq, Repr

namespace WasmArgument

/-- The room an argument takes in memory. -/
def memorySize : WasmArgument → Nat
  | .string str => RomaWasmStringRepresentation.computeMemorySizeFor str
  | .listOfString list => RomaWasmListOfStringRepresentation.computeMemorySizeFor list
  | _ => 0

/-- A string's length, as every `std::string`'s, is a `size_t`. -/
def Sized : WasmArgument → Prop
  | .string str => str.length < 2 ^ 64
  | .listOfString list => ∀ str ∈ list, str.length < 2 ^ 64
  | _ => True

end WasmArgument

namespace ExecutionUtils

/-- The loop of `ParseAsWasmInput` from one argument on, with the offset
where the next string or list goes: the values the call receives, or `none`
for the empty array of a failure. -/
def writeArguments (memSize : UInt64) :
    (Nat → UInt8) → List WasmArgument → UInt64 → Option (List Int) × (Nat → UInt8)
  | mem, [], _ => (some [], mem)
  | mem, .integer v :: rest, offset =>
      -- No serialization needed
      let (argv, mem) := writeArguments memSize mem rest offset
      (argv.map (v :: ·), mem)
  | mem, .string str :: rest, offset =>
      let (ptr, mem) := WasmSerializer.writeCustomString mem memSize offset str
      -- The serialization failed
      if ptr = 0xFFFFFFFF then (none, mem)
      else
        let (argv, mem) := writeArguments memSize mem rest
          (offset + (RomaWasmStringRepresentation.computeMemorySizeFor str).toUInt64)
        (argv.map ((ptr.toNat : Int) :: ·), mem)
  | mem, .listOfString list :: rest, offset =>
      let (ptr, mem) := WasmSerializer.writeCustomListOfString mem memSize offset list
      -- The serialization failed
      if ptr = 0xFFFFFFFF then (none, mem)
      else
        let (argv, mem) := writeArguments memSize mem rest
          (offset + (RomaWasmListOfStringRepresentation.computeMemorySizeFor list).toUInt64)
        (argv.map ((ptr.toNat : Int) :: ·), mem)
  | mem, .unsupported :: _, _ => (none, mem)

/-- `ParseAsWasmInput` over the parsed arguments, into a WASM memory: the
arguments are written from offset 0. -/
def parseAsWasmInput (mem : Nat → UInt8) (memSize : UInt64) (parsedArgs : List WasmArgument) :
    Option (List Int) × (Nat → UInt8) :=
  writeArguments memSize mem parsedArgs 0

/-- Each write of the loop succeeds: every argument is supported, its room
fits after the arguments before it, and no empty string, nor list whose
first string is empty, lands at offset 0. -/
def Layable (memSize : Nat) : Nat → List WasmArgument → Prop
  | _, [] => True
  | offset, .integer _ :: rest => Layable memSize offset rest
  | offset, .string str :: rest =>
      offset + RomaWasmStringRepresentation.computeMemorySizeFor str ≤ memSize ∧
        0 < offset + str.length ∧
        Layable memSize (offset + RomaWasmStringRepresentation.computeMemorySizeFor str) rest
  | offset, .listOfString list :: rest =>
      offset + RomaWasmListOfStringRepresentation.computeMemorySizeFor list ≤ memSize ∧
        (0 < offset ∨ list.head? ≠ some []) ∧
        Layable memSize (offset + RomaWasmListOfStringRepresentation.computeMemorySizeFor list) rest
  | _, .unsupported :: _ => False

/-- What the call can read back from the value it received for an argument:
the number itself, or, at the pointer, the string or the list, each string
with a first byte 0 as the empty string. -/
def ReadsBack (mem : Nat → UInt8) (memSize : UInt64) : WasmArgument → Int → Prop
  | .integer v, x => x = v
  | .string str, x => ∃ ptr : UInt32, x = ptr.toNat ∧
      WasmDeserializer.readCustomString mem memSize ptr.toUInt64 =
        .ok (if str.headD 0 = 0 then [] else str)
  | .listOfString list, x => ∃ ptr : UInt32, x = ptr.toNat ∧
      WasmDeserializer.readCustomListOfString mem memSize ptr.toUInt64 [] =
        .ok (list.map fun str => if str.headD 0 = 0 then [] else str)
  | .unsupported, _ => False

end ExecutionUtils

section Layout

open WasmSerializer

variable {memSize : UInt64}

/-- The room of the arguments of a call. -/
theorem memorySize_cons (arg : WasmArgument) (rest : List WasmArgument) :
    ((arg :: rest).map WasmArgument.memorySize).sum =
      arg.memorySize + (rest.map WasmArgument.memorySize).sum := by
  rw [List.map_cons, List.sum_cons]

/-- A write whose room was `n` from `offset`, then the rest of the loop from
`offset + n`: when the write succeeded, its room was inside the memory, so
the next offset did not wrap, and nothing outside the two rooms changed. -/
theorem unchanged_then {offset : UInt64} {n rest : Nat} {mem mem₁ mem₂ : Nat → UInt8}
    (hfit : offset.toNat + n ≤ memSize.toNat)
    (hfirst : Unchanged offset.toNat (offset.toNat + n) mem mem₁)
    (hrest : Unchanged (offset + n.toUInt64).toNat ((offset + n.toUInt64).toNat + rest) mem₁ mem₂) :
    Unchanged offset.toNat (offset.toNat + (n + rest)) mem mem₂ := by
  have hsize := memSize.toNat_lt
  rw [toNat_add_size (by omega)] at hrest
  exact (hfirst.mono (Nat.le_refl _) (by omega)).trans (hrest.mono (by omega) (by omega))

/-- The loop writes nothing outside the room of the arguments from its
offset on. -/
theorem writeArguments_unchanged (hm : memSize.toNat ≤ 2 ^ 32) (args : List WasmArgument)
    (mem : Nat → UInt8) (offset : UInt64) (hs : ∀ arg ∈ args, arg.Sized) :
    Unchanged offset.toNat (offset.toNat + (args.map WasmArgument.memorySize).sum) mem
      (ExecutionUtils.writeArguments memSize mem args offset).2 := by
  induction args generalizing mem offset with
  | nil => exact Unchanged.refl _ _ _
  | cons arg rest ih =>
      have hrest := fun mem offset => ih mem offset (fun a ha => hs a (List.mem_cons_of_mem _ ha))
      have harg := hs arg (by simp)
      rw [memorySize_cons]
      cases arg with
      | integer v =>
          have h := hrest mem offset
          rw [ExecutionUtils.writeArguments]
          generalize ExecutionUtils.writeArguments memSize mem rest offset = w at h ⊢
          obtain ⟨argv, mem₁⟩ := w
          simpa [WasmArgument.memorySize] using h
      | string str =>
          have hfirst := writeCustomString_unchanged hm mem offset harg
          have hok : (writeCustomString mem memSize offset str).1 ≠ 0xFFFFFFFF →
              offset.toNat + RomaWasmStringRepresentation.computeMemorySizeFor str ≤
                memSize.toNat ∧ 0 < offset.toNat + str.length :=
            (writeCustomString_succeeds_iff hm offset harg).mp
          rw [ExecutionUtils.writeArguments]
          generalize writeCustomString mem memSize offset str = w at hfirst hok ⊢
          obtain ⟨ptr, mem₁⟩ := w
          dsimp only at hfirst hok ⊢
          by_cases hfail : ptr = 0xFFFFFFFF
          · rw [if_pos hfail]
            exact hfirst.mono (Nat.le_refl _) (by simp [WasmArgument.memorySize])
          · rw [if_neg hfail]
            have h := hrest mem₁ (offset + (RomaWasmStringRepresentation.computeMemorySizeFor str).toUInt64)
            generalize ExecutionUtils.writeArguments memSize mem₁ rest _ = w at h ⊢
            obtain ⟨argv, mem₂⟩ := w
            exact unchanged_then (hok hfail).1 hfirst h
      | listOfString list =>
          have hfirst := writeCustomListOfString_unchanged hm mem offset harg
          have hok : (writeCustomListOfString mem memSize offset list).1 ≠ 0xFFFFFFFF →
              offset.toNat + RomaWasmListOfStringRepresentation.computeMemorySizeFor list ≤
                memSize.toNat ∧ (0 < offset.toNat ∨ list.head? ≠ some []) :=
            (writeCustomListOfString_succeeds_iff hm mem offset harg).mp
          rw [ExecutionUtils.writeArguments]
          generalize writeCustomListOfString mem memSize offset list = w at hfirst hok ⊢
          obtain ⟨ptr, mem₁⟩ := w
          dsimp only at hfirst hok ⊢
          by_cases hfail : ptr = 0xFFFFFFFF
          · rw [if_pos hfail]
            exact hfirst.mono (Nat.le_refl _) (by simp [WasmArgument.memorySize])
          · rw [if_neg hfail]
            have h := hrest mem₁
              (offset + (RomaWasmListOfStringRepresentation.computeMemorySizeFor list).toUInt64)
            generalize ExecutionUtils.writeArguments memSize mem₁ rest _ = w at h ⊢
            obtain ⟨argv, mem₂⟩ := w
            exact unchanged_then (hok hfail).1 hfirst h
      | unsupported => exact Unchanged.refl _ _ _

/-- The loop succeeds exactly when each of its writes does. -/
theorem writeArguments_isSome_iff (hm : memSize.toNat ≤ 2 ^ 32) (args : List WasmArgument)
    (mem : Nat → UInt8) (offset : UInt64) (hs : ∀ arg ∈ args, arg.Sized) :
    (ExecutionUtils.writeArguments memSize mem args offset).1.isSome ↔
      ExecutionUtils.Layable memSize.toNat offset.toNat args := by
  induction args generalizing mem offset with
  | nil => simp [ExecutionUtils.writeArguments, ExecutionUtils.Layable]
  | cons arg rest ih =>
      have hrest := fun mem offset => ih mem offset (fun a ha => hs a (List.mem_cons_of_mem _ ha))
      have harg := hs arg (by simp)
      have hsize := memSize.toNat_lt
      cases arg with
      | integer v =>
          have h := hrest mem offset
          rw [ExecutionUtils.writeArguments, ExecutionUtils.Layable]
          generalize ExecutionUtils.writeArguments memSize mem rest offset = w at h ⊢
          obtain ⟨argv, mem₁⟩ := w
          rw [← h]
          dsimp only
          rw [Option.isSome_map]
      | string str =>
          have hroom : RomaWasmStringRepresentation.computeMemorySizeFor str = str.length + 8 := rfl
          rw [ExecutionUtils.writeArguments, ExecutionUtils.Layable]
          by_cases hok : offset.toNat + RomaWasmStringRepresentation.computeMemorySizeFor str ≤
              memSize.toNat ∧ 0 < offset.toNat + str.length
          · -- the string is written; the rest of the loop decides
            have hnext : (offset + (RomaWasmStringRepresentation.computeMemorySizeFor str).toUInt64).toNat =
                offset.toNat + RomaWasmStringRepresentation.computeMemorySizeFor str :=
              toNat_add_size (by omega)
            rw [writeCustomString_of_le hok.1 hok.2]
            dsimp only
            rw [if_neg (ofNat_ne_max (by omega))]
            have h := hrest (write mem offset.toNat (stringImage offset.toNat str))
              (offset + (RomaWasmStringRepresentation.computeMemorySizeFor str).toUInt64)
            rw [hnext] at h
            generalize ExecutionUtils.writeArguments memSize _ rest _ = w at h ⊢
            obtain ⟨argv, mem₂⟩ := w
            rw [Option.isSome_map, h]
            exact ⟨fun hl => ⟨hok.1, hok.2, hl⟩, fun hl => hl.2.2⟩
          · have hfail : (writeCustomString mem memSize offset str).1 = 0xFFFFFFFF :=
              not_not.mp (mt (writeCustomString_succeeds_iff hm offset harg).mp hok)
            generalize writeCustomString mem memSize offset str = w at hfail ⊢
            obtain ⟨ptr, mem₁⟩ := w
            dsimp only at hfail ⊢
            rw [if_pos hfail]
            simp only [Option.isSome_none, Bool.false_eq_true, false_iff]
            exact fun hl => hok ⟨hl.1, hl.2.1⟩
      | listOfString list =>
          have hroom := computeMemorySizeFor_list list
          rw [ExecutionUtils.writeArguments, ExecutionUtils.Layable]
          by_cases hok : offset.toNat + RomaWasmListOfStringRepresentation.computeMemorySizeFor list ≤
              memSize.toNat ∧ (0 < offset.toNat ∨ list.head? ≠ some [])
          · -- the list is written; the rest of the loop decides
            have hnext :
                (offset + (RomaWasmListOfStringRepresentation.computeMemorySizeFor list).toUInt64).toNat =
                  offset.toNat + RomaWasmListOfStringRepresentation.computeMemorySizeFor list :=
              toNat_add_size (by omega)
            rw [writeCustomListOfString_of_le hm hok.1 hok.2]
            dsimp only
            rw [if_neg (ofNat_ne_max (by omega))]
            have h := hrest (write mem offset.toNat (listImage offset.toNat list))
              (offset + (RomaWasmListOfStringRepresentation.computeMemorySizeFor list).toUInt64)
            rw [hnext] at h
            generalize ExecutionUtils.writeArguments memSize _ rest _ = w at h ⊢
            obtain ⟨argv, mem₂⟩ := w
            rw [Option.isSome_map, h]
            exact ⟨fun hl => ⟨hok.1, hok.2, hl⟩, fun hl => hl.2.2⟩
          · have hfail : (writeCustomListOfString mem memSize offset list).1 = 0xFFFFFFFF :=
              not_not.mp (mt (writeCustomListOfString_succeeds_iff hm mem offset harg).mp hok)
            generalize writeCustomListOfString mem memSize offset list = w at hfail ⊢
            obtain ⟨ptr, mem₁⟩ := w
            dsimp only at hfail ⊢
            rw [if_pos hfail]
            simp only [Option.isSome_none, Bool.false_eq_true, false_iff]
            exact fun hl => hok ⟨hl.1, hl.2.1⟩
      | unsupported => simp [ExecutionUtils.writeArguments, ExecutionUtils.Layable]

theorem map_cons_eq_some {x : Int} {argv : Option (List Int)} {values : List Int}
    (h : argv.map (x :: ·) = some values) : ∃ rest, argv = some rest ∧ values = x :: rest := by
  obtain ⟨rest, hrest, hvalues⟩ := Option.map_eq_some_iff.mp h
  exact ⟨rest, hrest, hvalues.symm⟩

/-- Every value the loop hands the call reads back as its argument in the
memory the loop leaves: each string and list was written as its image, and
the later arguments went past it. -/
theorem writeArguments_reads_back (hm : memSize.toNat ≤ 2 ^ 32) (args : List WasmArgument)
    (mem : Nat → UInt8) (offset : UInt64) (hs : ∀ arg ∈ args, arg.Sized) {values : List Int}
    (h : (ExecutionUtils.writeArguments memSize mem args offset).1 = some values) :
    List.Forall₂ (ExecutionUtils.ReadsBack (ExecutionUtils.writeArguments memSize mem args offset).2
      memSize) args values := by
  induction args generalizing mem offset values with
  | nil =>
      cases h
      exact List.Forall₂.nil
  | cons arg rest ih =>
      have hs' : ∀ a ∈ rest, a.Sized := fun a ha => hs a (List.mem_cons_of_mem _ ha)
      have harg := hs arg (by simp)
      have hsize := memSize.toNat_lt
      cases arg with
      | integer v =>
          have hih := @ih mem offset hs'
          rw [ExecutionUtils.writeArguments] at h ⊢
          generalize ExecutionUtils.writeArguments memSize mem rest offset = w at h hih ⊢
          obtain ⟨argv, mem₁⟩ := w
          dsimp only at h hih ⊢
          obtain ⟨argv', rfl, rfl⟩ := map_cons_eq_some h
          exact List.Forall₂.cons rfl (hih rfl)
      | string str =>
          have hroom : RomaWasmStringRepresentation.computeMemorySizeFor str = str.length + 8 := rfl
          -- the string was written, or the loop would have ended with none
          have hok : offset.toNat + RomaWasmStringRepresentation.computeMemorySizeFor str ≤
              memSize.toNat ∧ 0 < offset.toNat + str.length := by
            have hiff : (writeCustomString mem memSize offset str).1 ≠ 0xFFFFFFFF ↔ _ :=
              writeCustomString_succeeds_iff hm offset harg
            refine hiff.mp fun hfail => ?_
            rw [ExecutionUtils.writeArguments] at h
            generalize writeCustomString mem memSize offset str = w at h hfail
            obtain ⟨ptr, mem₁⟩ := w
            dsimp only at h hfail
            rw [if_pos hfail] at h
            cases h
          have hnext : (offset + (RomaWasmStringRepresentation.computeMemorySizeFor str).toUInt64).toNat =
              offset.toNat + RomaWasmStringRepresentation.computeMemorySizeFor str :=
            toNat_add_size (by omega)
          rw [ExecutionUtils.writeArguments, writeCustomString_of_le hok.1 hok.2] at h ⊢
          dsimp only at h ⊢
          rw [if_neg (ofNat_ne_max (by omega))] at h ⊢
          have hframe := writeArguments_unchanged hm rest
            (write mem offset.toNat (stringImage offset.toNat str))
            (offset + (RomaWasmStringRepresentation.computeMemorySizeFor str).toUInt64) hs'
          have hih := @ih (write mem offset.toNat (stringImage offset.toNat str))
            (offset + (RomaWasmStringRepresentation.computeMemorySizeFor str).toUInt64) hs'
          rw [hnext] at hframe
          generalize ExecutionUtils.writeArguments memSize _ rest _ = w at h hframe hih ⊢
          obtain ⟨argv, mem₂⟩ := w
          dsimp only at h hframe hih ⊢
          obtain ⟨argv', rfl, rfl⟩ := map_cons_eq_some h
          refine List.Forall₂.cons ⟨UInt32.ofNat (offset.toNat + str.length), rfl, ?_⟩ (hih rfl)
          rw [toUInt64_ofNat (by omega)]
          exact readCustomString_of_image hm hok.1 hok.2
            (read_write_of_unchanged (length_stringImage _ _) hframe)
      | listOfString list =>
          have hroom := computeMemorySizeFor_list list
          -- the list was written, or the loop would have ended with none
          have hok : offset.toNat + RomaWasmListOfStringRepresentation.computeMemorySizeFor list ≤
              memSize.toNat ∧ (0 < offset.toNat ∨ list.head? ≠ some []) := by
            refine (writeCustomListOfString_succeeds_iff hm mem offset harg).mp fun hfail => ?_
            rw [ExecutionUtils.writeArguments] at h
            generalize writeCustomListOfString mem memSize offset list = w at h hfail
            obtain ⟨ptr, mem₁⟩ := w
            dsimp only at h hfail
            rw [if_pos hfail] at h
            cases h
          have hnext :
              (offset + (RomaWasmListOfStringRepresentation.computeMemorySizeFor list).toUInt64).toNat =
                offset.toNat + RomaWasmListOfStringRepresentation.computeMemorySizeFor list :=
            toNat_add_size (by omega)
          rw [ExecutionUtils.writeArguments, writeCustomListOfString_of_le hm hok.1 hok.2] at h ⊢
          dsimp only at h ⊢
          rw [if_neg (ofNat_ne_max (by omega))] at h ⊢
          have hframe := writeArguments_unchanged hm rest
            (write mem offset.toNat (listImage offset.toNat list))
            (offset + (RomaWasmListOfStringRepresentation.computeMemorySizeFor list).toUInt64) hs'
          have hih := @ih (write mem offset.toNat (listImage offset.toNat list))
            (offset + (RomaWasmListOfStringRepresentation.computeMemorySizeFor list).toUInt64) hs'
          rw [hnext] at hframe
          generalize ExecutionUtils.writeArguments memSize _ rest _ = w at h hframe hih ⊢
          obtain ⟨argv, mem₂⟩ := w
          dsimp only at h hframe hih ⊢
          obtain ⟨argv', rfl, rfl⟩ := map_cons_eq_some h
          refine List.Forall₂.cons
            ⟨UInt32.ofNat (offset.toNat + stringsSize list + 4 * list.length), rfl, ?_⟩ (hih rfl)
          rw [toUInt64_ofNat (by omega)]
          exact readCustomListOfString_of_image hm hok.1 hok.2
            (read_write_of_unchanged (length_listImage _ _) hframe)
      | unsupported => cases h

/-- Laid out as `ParseAsWasmInput` lays them out, from offset 0, the
arguments of a call are all written exactly when each write fits, and then
every value the call receives reads back as its argument. -/
theorem parseAsWasmInput_round_trip (hm : memSize.toNat ≤ 2 ^ 32) (mem : Nat → UInt8)
    (args : List WasmArgument) (hs : ∀ arg ∈ args, arg.Sized) :
    ((ExecutionUtils.parseAsWasmInput mem memSize args).1.isSome ↔
        ExecutionUtils.Layable memSize.toNat 0 args) ∧
      ∀ values, (ExecutionUtils.parseAsWasmInput mem memSize args).1 = some values →
        List.Forall₂ (ExecutionUtils.ReadsBack (ExecutionUtils.parseAsWasmInput mem memSize args).2
          memSize) args values :=
  ⟨writeArguments_isSome_iff hm args mem 0 hs,
    fun _ h => writeArguments_reads_back hm args mem 0 hs h⟩

/-- An argument of at least 8 bytes of room, then the rest: it fits and the
rest fits after it exactly when the two rooms together fit. -/
theorem fits_then_iff {P Q : Prop} {offset n rest memSize : Nat} (hn : 8 ≤ n) (hq : Q) :
    offset + n ≤ memSize ∧ Q ∧ P ∧ (rest = 0 ∨ offset + n + rest ≤ memSize) ↔
      P ∧ (n + rest = 0 ∨ offset + (n + rest) ≤ memSize) := by
  constructor
  · rintro ⟨hfit, -, hp, hrest⟩
    refine ⟨hp, .inr ?_⟩
    rcases hrest with h | h <;> omega
  · rintro ⟨hp, hall⟩
    have hfit : offset + (n + rest) ≤ memSize := by
      rcases hall with h | h <;> omega
    exact ⟨by omega, hq, hp, .inr (by omega)⟩

/-- Away from offset 0 the writes of the loop all succeed exactly when every
argument is supported and, if any takes room, their rooms together fit. -/
theorem layable_iff_of_pos {memSize offset : Nat} (ho : 0 < offset) (args : List WasmArgument) :
    ExecutionUtils.Layable memSize offset args ↔
      (∀ arg ∈ args, arg ≠ .unsupported) ∧
        ((args.map WasmArgument.memorySize).sum = 0 ∨
          offset + (args.map WasmArgument.memorySize).sum ≤ memSize) := by
  induction args generalizing offset with
  | nil => simp [ExecutionUtils.Layable]
  | cons arg rest ih =>
      rw [memorySize_cons, List.forall_mem_cons]
      cases arg with
      | integer v =>
          rw [ExecutionUtils.Layable, ih ho]
          simp [WasmArgument.memorySize]
      | string str =>
          have hroom : RomaWasmStringRepresentation.computeMemorySizeFor str = str.length + 8 := rfl
          rw [ExecutionUtils.Layable, ih (by omega)]
          simp only [WasmArgument.memorySize, ne_eq, reduceCtorEq, not_false_eq_true, true_and]
          exact fits_then_iff (by omega) (by omega)
      | listOfString list =>
          have hroom := computeMemorySizeFor_list list
          rw [ExecutionUtils.Layable, ih (by omega)]
          simp only [WasmArgument.memorySize, ne_eq, reduceCtorEq, not_false_eq_true, true_and]
          exact fits_then_iff (by omega) (.inl ho)
      | unsupported => simp [ExecutionUtils.Layable]

end Layout

namespace WasmSerializer

/-- The memory of the empty-string test: bytes of 0. -/
def zeroedBlob : Nat → UInt8 := fun _ => 0

/-- The empty string cannot be written at offset 0: the write fails,
although its 8 bytes of room fit; reading at the failure's `UINT32_MAX`
gives the empty string, so the test that writes and reads it back passes.
A call whose only argument is the empty string fails. A string of one
byte 0 is written and reads back as the empty string. -/
theorem writeCustomString_rejects_empty_at_zero :
    (writeCustomString zeroedBlob 10 0 []).1 = 0xFFFFFFFF ∧
    WasmDeserializer.readCustomString (writeCustomString zeroedBlob 10 0 []).2 10 0xFFFFFFFF =
      .ok [] ∧
    (ExecutionUtils.parseAsWasmInput zeroedBlob 10 [.string []]).1 = none ∧
    (writeCustomString zeroedBlob 10 0 [0]).1 = 1 ∧
    WasmDeserializer.readCustomString (writeCustomString zeroedBlob 10 0 [0]).2 10 1 = .ok [] := by
  decide

end WasmSerializer

end ControlPlane.Roma
