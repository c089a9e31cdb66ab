import ControlPlane.Core.Serialization

/-!
# The text form of a `Uuid`

`ToString` (src/cc/core/common/uuid) writes the sixteen bytes of a `Uuid`,
high word first, as upper-case hexadecimal digits in the layout
`00000000-0000-0000-0000-000000000000`. `FromString` checks the length, the
four separators and every character, and then ors each pair of digits, read
by `ReadHex`, into the `Uuid` it was given.

Reading back what `ToString` wrote gives the `Uuid` it was written from
(`fromString_toString`): the digits of a byte parse to that byte
(`readHex_pair`), and or-ing the bytes at their shifts rebuilds the word
(`or_bytes`). The checks accept more than the layout: the loop skips a `'-'`
at every position, and `ReadHex` parses a pair with a stream that takes a
sign, so a `'-'` inside a group passes and changes what is read.

## Implementation notes

A `std::string` is a `List Char`; every text the checks accept is ASCII. The
stream extraction `istrstream >> std::hex >> byte` is modelled for what the
accepted texts can hold: an optional sign and a run of hex digits, where no
digit leaves `byte` at its initial 0.
-/

namespace ControlPlane.Core.Common

open Core

def scUuid : Nat := 0x0011

def scUuidInvalidString : StatusCode := makeErrorCode scUuid 0x0001

def kZeroUuid : Uuid := ⟨0, 0⟩

/-- `kHexMap`, the digits `ToString` writes. -/
def kHexMap : List Char :=
  ['0', '1', '2', '3', '4', '5', '6', '7', '8', '9', 'A', 'B', 'C', 'D', 'E', 'F']

/-- `AppendHex`: the two digits of a byte, high half first. -/
def appendHex (byte : Nat) (stringToAppend : List Char) : List Char :=
  let firstDigit := byte >>> 4
  let secondDigit := byte &&& 0x0F
  stringToAppend ++ [kHexMap.getD firstDigit '\x00', kHexMap.getD secondDigit '\x00']

/-- `ToString`. -/
def toString (uuid : Uuid) : List Char :=
  let high := uuid.high
  let low := uuid.low
  let s := appendHex ((high >>> 56) &&& 0xFF).toNat []
  let s := appendHex ((high >>> 48) &&& 0xFF).toNat s
  let s := appendHex ((high >>> 40) &&& 0xFF).toNat s
  let s := appendHex ((high >>> 32) &&& 0xFF).toNat s
  let s := s ++ ['-']
  let s := appendHex ((high >>> 24) &&& 0xFF).toNat s
  let s := appendHex ((high >>> 16) &&& 0xFF).toNat s
  let s := s ++ ['-']
  let s := appendHex ((high >>> 8) &&& 0xFF).toNat s
  let s := appendHex (high &&& 0xFF).toNat s
  let s := s ++ ['-']
  let s := appendHex ((low >>> 56) &&& 0xFF).toNat s
  let s := appendHex ((low >>> 48) &&& 0xFF).toNat s
  let s := s ++ ['-']
  let s := appendHex ((low >>> 40) &&& 0xFF).toNat s
  let s := appendHex ((low >>> 32) &&& 0xFF).toNat s
  let s := appendHex ((low >>> 24) &&& 0xFF).toNat s
  let s := appendHex ((low >>> 16) &&& 0xFF).toNat s
  let s := appendHex ((low >>> 8) &&& 0xFF).toNat s
  appendHex (low &&& 0xFF).toNat s

/-- The value of a digit in the stream's hex mode, either case. -/
def hexDigitValue (c : Char) : Option Nat :=
  if '0' ≤ c ∧ c ≤ '9' then some (c.toNat - '0'.toNat)
  else if 'A' ≤ c ∧ c ≤ 'F' then some (c.toNat - 'A'.toNat + 10)
  else if 'a' ≤ c ∧ c ≤ 'f' then some (c.toNat - 'a'.toNat + 10)
  else none

/-- The values of the digits at the front of a text, up to the first
character that is not one. -/
def hexDigitRun : List Char → List Nat
  | c :: rest =>
    match hexDigitValue c with
    | some digit => digit :: hexDigitRun rest
    | none => []
  | [] => []

def hexValue (digits : List Char) : Nat :=
  (hexDigitRun digits).foldl (fun value digit => 16 * value + digit) 0

/-- What extracting an `int` in hex mode gives: a sign, if there is one,
and then the value of the run of digits after it. -/
def streamHexInt (digits : List Char) : Int :=
  match digits with
  | c :: rest =>
    if c = '-' then -(hexValue rest : Int)
    else if c = '+' then hexValue rest
    else hexValue digits
  | [] => 0

/-- `ReadHex`: the `int` read from the two characters at `offset`, as a
`uint64_t`. -/
def readHex (stringToRead : List Char) (offset : Nat) : UInt64 :=
  UInt64.ofInt (streamHexInt ((stringToRead.drop offset).take 2))

def isxdigit (c : Char) : Bool := (hexDigitValue c).isSome

def islower (c : Char) : Bool := c.isLower

/-- The character loop of `FromString`: a `'-'` is skipped wherever it
stands, anything else must be an upper-case hex digit. -/
def acceptsCharacter (c : Char) : Bool := c == '-' || (isxdigit c && !islower c)

/-- `FromString`: the result and the `Uuid` passed by reference, which a
failure leaves as it was. -/
def fromString (uuidString : List Char) (uuid : Uuid) : ExecutionResult × Uuid :=
  if uuidString.length ≠ 36 then (failureExecutionResult scUuidInvalidString, uuid)
  else if uuidString.getD 8 ' ' ≠ '-' ∨ uuidString.getD 13 ' ' ≠ '-' ∨
      uuidString.getD 18 ' ' ≠ '-' ∨ uuidString.getD 23 ' ' ≠ '-' then
    (failureExecutionResult scUuidInvalidString, uuid)
  else if !uuidString.all acceptsCharacter then
    (failureExecutionResult scUuidInvalidString, uuid)
  else
    let high := uuid.high
    let high := high ||| (readHex uuidString 0 <<< 56)
    let high := high ||| (readHex uuidString 2 <<< 48)
    let high := high ||| (readHex uuidString 4 <<< 40)
    let high := high ||| (readHex uuidString 6 <<< 32)
    let high := high ||| (readHex uuidString 9 <<< 24)
    let high := high ||| (readHex uuidString 11 <<< 16)
    let high := high ||| (readHex uuidString 14 <<< 8)
    let high := high ||| readHex uuidString 16
    let low := uuid.low
    let low := low ||| (readHex uuidString 19 <<< 56)
    let low := low ||| (readHex uuidString 21 <<< 48)
    let low := low ||| (readHex uuidString 24 <<< 40)
    let low := low ||| (readHex uuidString 26 <<< 32)
    let low := low ||| (readHex uuidString 28 <<< 24)
    let low := low ||| (readHex uuidString 30 <<< 16)
    let low := low ||| (readHex uuidString 32 <<< 8)
    let low := low ||| readHex uuidString 34
    (successExecutionResult, ⟨high, low⟩)

/-- The four separators `FromString` checks. -/
def SeparatorsAt (s : List Char) : Prop :=
  s.getD 8 ' ' = '-' ∧ s.getD 13 ' ' = '-' ∧ s.getD 18 ' ' = '-' ∧ s.getD 23 ' ' = '-'

/-- The layout `[0-9A-F]{8}-[0-9A-F]{4}-[0-9A-F]{4}-[0-9A-F]{4}-[0-9A-F]{12}`,
position by position. -/
def layoutCharacter (i : Nat) (c : Char) : Bool :=
  if i = 8 ∨ i = 13 ∨ i = 18 ∨ i = 23 then c == '-' else kHexMap.contains c

def matchesUuidLayout (s : List Char) : Bool :=
  s.length == 36 && s.zipIdx.all fun (c, i) => layoutCharacter i c

/-! ## Checks and branches of `FromString` -/

theorem fromString_of_accepts {s : List Char} (uuid : Uuid) (hlength : s.length = 36)
    (hdash : SeparatorsAt s) (hall : s.all acceptsCharacter = true) :
    fromString s uuid = (successExecutionResult,
      ⟨uuid.high ||| (readHex s 0 <<< 56) ||| (readHex s 2 <<< 48) ||| (readHex s 4 <<< 40) |||
          (readHex s 6 <<< 32) ||| (readHex s 9 <<< 24) ||| (readHex s 11 <<< 16) |||
          (readHex s 14 <<< 8) ||| readHex s 16,
        uuid.low ||| (readHex s 19 <<< 56) ||| (readHex s 21 <<< 48) ||| (readHex s 24 <<< 40) |||
          (readHex s 26 <<< 32) ||| (readHex s 28 <<< 24) ||| (readHex s 30 <<< 16) |||
          (readHex s 32 <<< 8) ||| readHex s 34⟩) := by
  obtain ⟨h8, h13, h18, h23⟩ := hdash
  simp only [fromString, hlength, h8, h13, h18, h23, hall, ne_eq, not_true_eq_false, or_self,
    if_false, Bool.not_true, Bool.false_eq_true]

/-- A text that fails a check leaves the `Uuid` as it was. -/
theorem fromString_of_rejects {s : List Char} (uuid : Uuid)
    (hreject : ¬(s.length = 36 ∧ SeparatorsAt s ∧ s.all acceptsCharacter = true)) :
    fromString s uuid = (failureExecutionResult scUuidInvalidString, uuid) := by
  unfold fromString
  split_ifs with hlength hdash hall
  · rfl
  · rfl
  · rfl
  · exfalso
    apply hreject
    refine ⟨by omega, ?_, by simpa using hall⟩
    simpa [SeparatorsAt, not_or] using hdash

theorem fromString_successful_iff (s : List Char) (uuid : Uuid) :
    (fromString s uuid).1 = successExecutionResult ↔
      s.length = 36 ∧ SeparatorsAt s ∧ s.all acceptsCharacter = true := by
  constructor
  · intro hsuccess
    by_contra hreject
    rw [fromString_of_rejects uuid hreject] at hsuccess
    exact failureExecutionResult_ne_success _ hsuccess
  · rintro ⟨hlength, hdash, hall⟩
    rw [fromString_of_accepts uuid hlength hdash hall]

/-! ## Digits and bytes -/

theorem hexDigitValue_kHexMap : ∀ d < 16, hexDigitValue (kHexMap.getD d '\x00') = some d := by
  decide

theorem kHexMap_ne_sign : ∀ d < 16, kHexMap.getD d '\x00' ≠ '-' ∧ kHexMap.getD d '\x00' ≠ '+' := by
  decide

theorem acceptsCharacter_kHexMap : ∀ d < 16, acceptsCharacter (kHexMap.getD d '\x00') = true := by
  decide

theorem kHexMap_contains : ∀ d < 16, kHexMap.contains (kHexMap.getD d '\x00') = true := by
  decide

/-- Two digits read back as sixteen times the first plus the second. -/
theorem streamHexInt_kHexMap {d e : Nat} (hd : d < 16) (he : e < 16) :
    streamHexInt [kHexMap.getD d '\x00', kHexMap.getD e '\x00'] = ((16 * d + e : Nat) : Int) := by
  obtain ⟨hminus, hplus⟩ := kHexMap_ne_sign d hd
  rw [streamHexInt, if_neg hminus, if_neg hplus, hexValue, hexDigitRun,
    hexDigitValue_kHexMap d hd, hexDigitRun, hexDigitValue_kHexMap e he, hexDigitRun]
  simp

/-- A byte is its high half times sixteen plus its low half. -/
theorem byte_halves (b : Nat) : 16 * (b >>> 4) + (b &&& 15) = b := by
  have hlow : b &&& 15 = b % 16 := by
    simpa using Nat.and_two_pow_sub_one_eq_mod b 4
  have hhigh : b >>> 4 = b / 16 := by
    simpa using Nat.shiftRight_eq_div_pow b 4
  rw [hlow, hhigh]
  omega

theorem ofInt_natCast (n : Nat) : UInt64.ofInt (n : Int) = UInt64.ofNat n := by
  have hmod : ((n : Int) % 2 ^ 64).toNat = n % 2 ^ 64 := by omega
  rw [UInt64.ofInt, hmod, UInt64.ofNat_mod_size]

theorem toNat_and_255_lt (x : UInt64) : (x &&& 255).toNat < 256 := by
  rw [UInt64.toNat_and]
  exact Nat.lt_of_le_of_lt Nat.and_le_right (by decide)

theorem high_digit_lt (x : UInt64) : (x &&& 255).toNat >>> 4 < 16 := by
  have hb := toNat_and_255_lt x
  rw [Nat.shiftRight_eq_div_pow]
  omega

theorem low_digit_lt (x : UInt64) : (x &&& 255).toNat &&& 15 < 16 :=
  Nat.lt_of_le_of_lt Nat.and_le_right (by decide)

/-- `ReadHex` of the two digits `AppendHex` wrote for a byte is that byte. -/
theorem readHex_pair (x : UInt64) :
    UInt64.ofInt (streamHexInt [kHexMap.getD ((x &&& 255).toNat >>> 4) '\x00',
      kHexMap.getD ((x &&& 255).toNat &&& 15) '\x00']) = x &&& 255 := by
  rw [streamHexInt_kHexMap (high_digit_lt x) (low_digit_lt x), byte_halves, ofInt_natCast,
    UInt64.ofNat_toNat]

/-- The byte at `k` fills the bits between `k` and the part above it. -/
theorem or_byte_shiftLeft (x : Nat) {k k' : Nat} (hk : k' = k + 8) :
    ((x >>> k') <<< k') ||| (((x >>> k) % 256) <<< k) = (x >>> k) <<< k := by
  have hlow : (x >>> k) % 256 < 2 ^ 8 := Nat.mod_lt _ (by decide)
  have hsplit : ((x >>> (8 + k)) <<< 8) + (x >>> k) % 256 = x >>> k := by
    rw [Nat.add_comm 8 k, Nat.shiftRight_add, Nat.shiftLeft_eq, Nat.shiftRight_eq_div_pow _ 8]
    omega
  rw [hk, Nat.add_comm k 8, Nat.shiftLeft_add, ← Nat.shiftLeft_or_distrib,
    ← Nat.shiftLeft_add_eq_or_of_lt hlow, hsplit]

/-- Or-ing the eight bytes of a number, highest first, onto what lies above
them gives the number. -/
theorem or_bytes_toNat (n : Nat) {acc : Nat} (hacc : acc = (n >>> 64) <<< 64) :
    acc ||| ((n >>> 56) % 256) <<< 56 ||| ((n >>> 48) % 256) <<< 48 |||
      ((n >>> 40) % 256) <<< 40 ||| ((n >>> 32) % 256) <<< 32 |||
      ((n >>> 24) % 256) <<< 24 ||| ((n >>> 16) % 256) <<< 16 |||
      ((n >>> 8) % 256) <<< 8 ||| ((n >>> 0) % 256) <<< 0 = n := by
  -- each step extends the known part of `n` by one byte downwards
  rw [hacc, @or_byte_shiftLeft n 56 64 rfl, @or_byte_shiftLeft n 48 56 rfl,
    @or_byte_shiftLeft n 40 48 rfl, @or_byte_shiftLeft n 32 40 rfl,
    @or_byte_shiftLeft n 24 32 rfl, @or_byte_shiftLeft n 16 24 rfl,
    @or_byte_shiftLeft n 8 16 rfl, @or_byte_shiftLeft n 0 8 rfl,
    Nat.shiftRight_zero, Nat.shiftLeft_zero]

theorem toNat_byte_shiftLeft (x s : UInt64) (hs : s.toNat ≤ 56) :
    (((x >>> s) &&& 255) <<< s).toNat = ((x.toNat >>> s.toNat) % 256) <<< s.toNat := by
  have hmod : s.toNat % 64 = s.toNat := Nat.mod_eq_of_lt (by omega)
  have hbyte : (x.toNat >>> s.toNat) % 256 < 256 := Nat.mod_lt _ (by decide)
  have hpow : 2 ^ s.toNat ≤ 2 ^ 56 := Nat.pow_le_pow_right (by decide) hs
  have hlt : ((x.toNat >>> s.toNat) % 256) <<< s.toNat < 2 ^ 64 := by
    rw [Nat.shiftLeft_eq]
    calc (x.toNat >>> s.toNat) % 256 * 2 ^ s.toNat < 256 * 2 ^ 56 :=
          Nat.mul_lt_mul_of_lt_of_le hbyte hpow (Nat.two_pow_pos 56)
      _ = 2 ^ 64 := by decide
  simp only [UInt64.toNat_shiftLeft, UInt64.toNat_and, UInt64.toNat_shiftRight, hmod]
  rw [show UInt64.toNat 255 = 2 ^ 8 - 1 from rfl, Nat.and_two_pow_sub_one_eq_mod,
    Nat.mod_eq_of_lt hlt]

/-- The bytes `ToString` takes from a word, or-ed back at their shifts as
`FromString` does, give the word. -/
theorem or_bytes (x : UInt64) :
    (0 : UInt64) ||| (((x >>> 56) &&& 255) <<< 56) ||| (((x >>> 48) &&& 255) <<< 48) |||
      (((x >>> 40) &&& 255) <<< 40) ||| (((x >>> 32) &&& 255) <<< 32) |||
      (((x >>> 24) &&& 255) <<< 24) ||| (((x >>> 16) &&& 255) <<< 16) |||
      (((x >>> 8) &&& 255) <<< 8) ||| (x &&& 255) = x := by
  apply UInt64.toNat.inj
  have hlast : (x &&& 255).toNat = ((x.toNat >>> 0) % 256) <<< 0 := by
    rw [UInt64.toNat_and, Nat.shiftRight_zero, Nat.shiftLeft_zero]
    exact Nat.and_two_pow_sub_one_eq_mod x.toNat 8
  have htop : 0 = (x.toNat >>> 64) <<< 64 := by
    rw [Nat.shiftRight_eq_div_pow, Nat.div_eq_of_lt x.toNat_lt, Nat.zero_shiftLeft]
  simp (disch := decide) only [UInt64.toNat_or, toNat_byte_shiftLeft, hlast, UInt64.reduceToNat]
  exact or_bytes_toNat x.toNat htop

theorem or_bytes_into (v x : UInt64) :
    v ||| (((x >>> 56) &&& 255) <<< 56) ||| (((x >>> 48) &&& 255) <<< 48) |||
      (((x >>> 40) &&& 255) <<< 40) ||| (((x >>> 32) &&& 255) <<< 32) |||
      (((x >>> 24) &&& 255) <<< 24) ||| (((x >>> 16) &&& 255) <<< 16) |||
      (((x >>> 8) &&& 255) <<< 8) ||| (x &&& 255) = v ||| x := by
  conv_rhs => rw [← or_bytes x]
  simp only [UInt64.or_assoc, UInt64.zero_or]

/-! ## What `ToString` writes -/

theorem toString_length (u : Uuid) : (toString u).length = 36 := by
  simp [toString, appendHex]

theorem toString_separatorsAt (u : Uuid) : SeparatorsAt (toString u) := by
  simp [SeparatorsAt, toString, appendHex]

theorem appendHex_all (x : UInt64) (s : List Char) :
    (appendHex (x &&& 255).toNat s).all acceptsCharacter = s.all acceptsCharacter := by
  rw [appendHex, List.all_append, List.all_cons, List.all_cons, List.all_nil,
    acceptsCharacter_kHexMap _ (high_digit_lt x), acceptsCharacter_kHexMap _ (low_digit_lt x)]
  simp only [Bool.and_true]

theorem toString_all (u : Uuid) : (toString u).all acceptsCharacter = true := by
  have hdash : acceptsCharacter '-' = true := rfl
  simp only [toString, List.all_append, appendHex_all, List.all_cons, List.all_nil, hdash,
    Bool.and_true]

/-- `ToString` always writes the layout of the pattern. -/
theorem matchesUuidLayout_toString (u : Uuid) : matchesUuidLayout (toString u) = true := by
  have hhigh (x : UInt64) := kHexMap_contains _ (high_digit_lt x)
  have hlow (x : UInt64) := kHexMap_contains _ (low_digit_lt x)
  rw [matchesUuidLayout, toString_length]
  -- thirty-six positions, each a separator or a digit from `kHexMap`
  simp only [toString, appendHex, List.nil_append, List.cons_append, List.zipIdx_cons,
    List.zipIdx_nil, List.all_cons, List.all_nil, layoutCharacter, Nat.reduceAdd, Nat.reduceEqDiff,
    or_self, or_false, false_or, if_false, if_true, hhigh, hlow, beq_self_eq_true, Bool.and_true]

/-- `FromString` ors what `ToString` wrote into the `Uuid` it is given. -/
theorem fromString_toString (uuid u : Uuid) :
    fromString (toString u) uuid =
      (successExecutionResult, ⟨uuid.high ||| u.high, uuid.low ||| u.low⟩) := by
  rw [fromString_of_accepts uuid (toString_length u) (toString_separatorsAt u) (toString_all u)]
  -- each `ReadHex` lands on the two digits of one byte
  simp only [readHex, toString, appendHex, List.nil_append, List.cons_append, List.drop_succ_cons,
    List.drop_zero, List.take_succ_cons, List.take_zero, readHex_pair]
  rw [or_bytes_into, or_bytes_into]

theorem fromString_toString_kZeroUuid (u : Uuid) :
    fromString (toString u) kZeroUuid = (successExecutionResult, u) := by
  rw [fromString_toString]
  simp [kZeroUuid]

/-- Reading back from `kZeroUuid` inverts `ToString`, and `ToString` writes
the layout; but `FromString` also accepts texts off the layout, a `'-'` in
place of a digit, and reads them as a `Uuid` whose text is another one. -/
theorem fromString_accepts_off_layout :
    (∀ u : Uuid, fromString (toString u) kZeroUuid = (successExecutionResult, u)) ∧
    (∀ u : Uuid, matchesUuidLayout (toString u) = true) ∧
    matchesUuidLayout "0-000000-0000-0000-0000-000000000000".toList = false ∧
    fromString "0-000000-0000-0000-0000-000000000000".toList kZeroUuid =
      (successExecutionResult, kZeroUuid) ∧
    toString kZeroUuid ≠ "0-000000-0000-0000-0000-000000000000".toList ∧
    matchesUuidLayout "-F000000-0000-0000-0000-000000000000".toList = false ∧
    fromString "-F000000-0000-0000-0000-000000000000".toList kZeroUuid =
      (successExecutionResult, ⟨0xF100000000000000, 0⟩) ∧
    toString ⟨0xF100000000000000, 0⟩ = "F1000000-0000-0000-0000-000000000000".toList := by
  refine ⟨fromString_toString_kZeroUuid, matchesUuidLayout_toString, ?_, ?_, ?_, ?_, ?_, ?_⟩
  all_goals decide +kernel

end ControlPlane.Core.Common
