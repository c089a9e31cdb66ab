import ControlPlane.PrivateKey.Utils
import ControlPlane.Lib.XorShare

/-!
# `KeySplitUtil`: splitting a key into XOR shares, and putting it back together

`KeySplitUtil.xorSplitBytes` (src/java/com/google/scp/shared/util/KeySplitUtil.java)
splits a message into `numPieces` pieces: `numPieces - 1` pads of random bytes,
then the message XOR-ed with all of them. `reconstructXorBytes` XORs the
pieces back together, and so does the C++ `PrivateKeyClientUtils::ConstructPrivateKey`
over the decrypted pieces of a private key. Both check that every piece is
as long as the first.

Whatever the pads, the pieces are as long as the message, and both
reconstructors give the message back from the pieces in any order.

## Implementation notes

The bytes the `i`-th call to `random.nextBytes` puts in its array are
`random i`; a Java exception is an `Except` error.
-/

namespace ControlPlane

open XorShare

namespace KeySplitUtil

/-- The exceptions the functions throw. -/
inductive JavaException
  | illegalArgument (message : String)
  | indexOutOfBounds
  deriving DecidableEq, Repr

/-- `xor`, byte by byte over `a`: reading past the end of a shorter `b` throws. -/
def xor (a b : List UInt8) : Except JavaException (List UInt8) :=
  if a.length ≤ b.length then .ok (bytewiseXor a b) else .error .indexOutOfBounds

/-- The loop of `xorSplitBytes` from its `i`-th pad on, with `count` pads
left, the XOR so far and the pieces so far; the XOR-ed message comes last. -/
def xorSplitLoop (random : Nat → Nat → UInt8) (size : Nat) :
    Nat → Nat → List UInt8 → List (List UInt8) → Except JavaException (List (List UInt8))
  | 0, _, xorResult, splits => pure (splits ++ [xorResult])
  | count + 1, i, xorResult, splits => do
      let randomBytes := List.ofFn fun j : Fin size => random i j
      let xorResult ← xor xorResult randomBytes
      xorSplitLoop random size count (i + 1) xorResult (splits ++ [randomBytes])

/-- `xorSplitBytes`: the loop runs `numPieces - 1` times, in 32-bit arithmetic. -/
def xorSplitBytes (random : Nat → Nat → UInt8) (message : List UInt8) (numPieces : Int32) :
    Except JavaException (List (List UInt8)) :=
  xorSplitLoop random message.length (numPieces - 1).toInt.toNat 0 message []

/-- One step of `reconstructXorBytes`'s loop. -/
def xorNextPiece (xorSecret nextPiece : List UInt8) : Except JavaException (List UInt8) :=
  if xorSecret.length ≠ nextPiece.length then
    .error (.illegalArgument "Input ByteString list has mismatched sizes.")
  else xor xorSecret nextPiece

/-- `reconstructXorBytes`: `pieces.get(0)` throws on no piece. -/
def reconstructXorBytes : List (List UInt8) → Except JavaException (List UInt8)
  | [] => .error .indexOutOfBounds
  | first :: rest => rest.foldlM xorNextPiece first

/-- The pads of the loop from its `start`-th call to `nextBytes` on. -/
def randomPads (random : Nat → Nat → UInt8) (size start count : Nat) : List (List UInt8) :=
  (List.range' start count).map fun i => List.ofFn fun j : Fin size => random i j

theorem length_of_mem_randomPads {random : Nat → Nat → UInt8} {size start count : Nat} :
    ∀ pad ∈ randomPads random size start count, pad.length = size := by
  intro pad hpad
  obtain ⟨i, -, rfl⟩ := List.mem_map.mp hpad
  exact List.length_ofFn

theorem xor_of_length_eq {a b : List UInt8} (h : a.length = b.length) :
    xor a b = .ok (bytewiseXor a b) :=
  if_pos (Nat.le_of_eq h)

/-- The loop draws its pads, XORs the message with each, and adds the
result after them. -/
theorem xorSplitLoop_eq (random : Nat → Nat → UInt8) (size count : Nat) :
    ∀ (i : Nat) (xorResult : List UInt8) (splits : List (List UInt8)),
      xorResult.length = size →
      xorSplitLoop random size count i xorResult splits =
        .ok (splits ++ shares xorResult (randomPads random size i count)) := by
  induction count with
  | zero =>
      intro i xorResult splits _
      simp [xorSplitLoop, shares, randomPads, pure, Except.pure]
  | succ count ih =>
      intro i xorResult splits hlen
      have hpad : (List.ofFn fun j : Fin size => random i j).length = size := List.length_ofFn
      rw [xorSplitLoop, xor_of_length_eq (hlen.trans hpad.symm)]
      simp only [bind, Except.bind]
      rw [ih (i + 1) _ _ (by simp [hlen])]
      simp [randomPads, shares, List.range'_succ]

/-- `xorSplitBytes` never throws: it gives the shares of the message with the
pads it drew. -/
theorem xorSplitBytes_eq (random : Nat → Nat → UInt8) (message : List UInt8) (numPieces : Int32) :
    xorSplitBytes random message numPieces =
      .ok (shares message (randomPads random message.length 0 (numPieces - 1).toInt.toNat)) := by
  rw [xorSplitBytes, xorSplitLoop_eq random message.length _ 0 message [] rfl, List.nil_append]

example : xorSplitBytes (fun _ _ => 5) [1, 2] 2 = .ok [[5, 5], [4, 7]] := by decide

/-- For a positive `numPieces`, the loop runs `numPieces - 1` times. -/
theorem toNat_sub_one {numPieces : Int32} (hn : 1 ≤ numPieces.toInt) :
    (numPieces - 1).toInt.toNat = numPieces.toInt.toNat - 1 := by
  have hlt := Int32.toInt_lt numPieces
  rw [Int32.toInt_sub, Int32.toInt_one]
  simp only [Int.bmod]
  split <;> omega

/-- Each step of `reconstructXorBytes` checks the next piece's length. -/
theorem xorNextPiece_checksLength :
    ChecksLength (.illegalArgument "Input ByteString list has mismatched sizes.") id
      xorNextPiece := by
  intro xorSecret nextPiece
  unfold xorNextPiece
  rw [id]
  by_cases h : xorSecret.length = nextPiece.length
  · rw [if_neg (not_not_intro h), if_pos h, xor_of_length_eq h]
  · rw [if_pos h, if_neg h]

/-- Over pieces all as long as the first, `reconstructXorBytes` gives the
XOR of them all. -/
theorem reconstructXorBytes_eq_ok {first : List UInt8} {rest : List (List UInt8)}
    (hall : ∀ p ∈ rest, p.length = first.length) :
    reconstructXorBytes (first :: rest) = .ok (xorAll first.length (first :: rest)) := by
  rw [reconstructXorBytes, xorNextPiece_checksLength.foldlM_eq_ok hall, List.map_id,
    foldl_eq_xorAll rfl]

/-- Among pieces of more than one length, whatever the order, some piece
differs from the first. -/
theorem exists_length_ne_head {first : List UInt8} {rest : List (List UInt8)}
    (h : ∃ p ∈ first :: rest, ∃ q ∈ first :: rest, p.length ≠ q.length) :
    ∃ r ∈ rest, r.length ≠ first.length := by
  obtain ⟨p, hp, q, hq, hpq⟩ := h
  by_contra hnone
  have hlen : ∀ r ∈ first :: rest, r.length = first.length := by
    intro r hr
    rcases List.mem_cons.mp hr with rfl | hr
    · rfl
    · exact not_not.mp fun hne => hnone ⟨r, hr, hne⟩
  exact hpq ((hlen p hp).trans (hlen q hq).symm)

/-- Pieces of more than one length are rejected. -/
theorem reconstructXorBytes_of_length_ne {pieces : List (List UInt8)}
    (h : ∃ p ∈ pieces, ∃ q ∈ pieces, p.length ≠ q.length) :
    reconstructXorBytes pieces =
      .error (.illegalArgument "Input ByteString list has mismatched sizes.") := by
  cases pieces with
  | nil => simp at h
  | cons first rest =>
      rw [reconstructXorBytes]
      exact xorNextPiece_checksLength.foldlM_eq_error (exists_length_ne_head h)

/-- In any order, the shares of a message are put back together as the
message. -/
theorem reconstructXorBytes_of_perm_shares {message : List UInt8} {pads : List (List UInt8)}
    (hpads : ∀ p ∈ pads, p.length = message.length) {order : List (List UInt8)}
    (hperm : order.Perm (shares message pads)) : reconstructXorBytes order = .ok message := by
  have hlen : ∀ p ∈ order, p.length = message.length := fun p hp =>
    length_of_mem_shares hpads p (hperm.subset hp)
  cases order with
  | nil =>
      have hcount := hperm.length_eq
      rw [length_shares, List.length_nil] at hcount
      omega
  | cons first rest =>
      have hfirst := hlen first (by simp)
      have hrest : ∀ p ∈ rest, p.length = first.length := fun p hp =>
        (hlen p (List.mem_cons_of_mem _ hp)).trans hfirst.symm
      rw [reconstructXorBytes_eq_ok hrest, hfirst, xorAll_perm hperm, xorAll_shares hpads]

end KeySplitUtil

namespace PrivateKeyClient.PrivateKeyClientUtils

/-- Each step of `ConstructPrivateKey`'s loop checks the next piece's length. -/
theorem xorPiece_checksLength :
    ChecksLength scPrivateKeyClientProviderSecretPieceSizeUnmatched DecryptResult.plaintext
      xorPiece := by
  intro xorSecret decryptResult
  unfold xorPiece
  by_cases h : xorSecret.length = decryptResult.plaintext.length
  · rw [if_neg (not_not_intro h), if_pos h]
    rfl
  · rw [if_pos h, if_neg h]

/-- Decrypt results whose plaintexts are of more than one length are
rejected. -/
theorem constructPrivateKey_of_length_ne {decryptResults : List DecryptResult}
    (h : ∃ d ∈ decryptResults, ∃ d' ∈ decryptResults,
      d.plaintext.length ≠ d'.plaintext.length) :
    constructPrivateKey decryptResults = .error scPrivateKeyClientProviderSecretPieceSizeUnmatched := by
  cases decryptResults with
  | nil => simp at h
  | cons first rest =>
      obtain ⟨d, hd, d', hd', hne⟩ := h
      -- some plaintext of the rest differs from the first one
      obtain ⟨r, hr, hrne⟩ := @KeySplitUtil.exists_length_ne_head first.plaintext
        (rest.map DecryptResult.plaintext)
        ⟨d.plaintext, List.mem_map_of_mem hd, d'.plaintext, List.mem_map_of_mem hd', hne⟩
      obtain ⟨e, he, rfl⟩ := List.mem_map.mp hr
      simp only [constructPrivateKey, xorPiece_checksLength.foldlM_eq_error ⟨e, he, hrne⟩,
        Record.error_bind]

/-- Over decrypt results whose plaintexts are the shares of a non-empty
message, in any order, `ConstructPrivateKey` gives the message as the
secret. -/
theorem constructPrivateKey_of_perm_shares {message : List UInt8} (hm : message ≠ [])
    {pads : List (List UInt8)} (hpads : ∀ p ∈ pads, p.length = message.length)
    {decryptResults : List DecryptResult}
    (hperm : (decryptResults.map DecryptResult.plaintext).Perm (shares message pads)) :
    ∃ key, constructPrivateKey decryptResults = .ok key ∧ key.privateKey = message := by
  have hlen : ∀ d ∈ decryptResults, d.plaintext.length = message.length := fun d hd =>
    length_of_mem_shares hpads _ (hperm.subset (List.mem_map_of_mem hd))
  cases decryptResults with
  | nil =>
      have hcount := hperm.length_eq
      rw [length_shares, List.map_nil, List.length_nil] at hcount
      omega
  | cons first rest =>
      have hfirst := hlen first (by simp)
      have hrest : ∀ d ∈ rest, d.plaintext.length = first.plaintext.length := fun d hd =>
        (hlen d (List.mem_cons_of_mem _ hd)).trans hfirst.symm
      -- the secret is the XOR of all the plaintexts, which is the message
      have hsecret : rest.foldl (fun s d => xor s d.plaintext) first.plaintext = message := by
        calc rest.foldl (fun s d => xor s d.plaintext) first.plaintext
            = (rest.map DecryptResult.plaintext).foldl bytewiseXor first.plaintext := by
              rw [List.foldl_map]
              rfl
          _ = xorAll message.length ((first :: rest).map DecryptResult.plaintext) := by
              rw [foldl_eq_xorAll hfirst]
              rfl
          _ = xorAll message.length (shares message pads) := xorAll_perm hperm
          _ = message := xorAll_shares hpads
      exact ⟨{ keyId := first.encryptionKey.keyId
               publicKey := first.encryptionKey.publicKeyMaterial
               privateKey := message
               expirationTime := first.encryptionKey.expirationTimeInMs
               creationTime := first.encryptionKey.creationTimeInMs },
        constructPrivateKey_eq_ok.mpr ⟨first, rest, rfl, hrest, hsecret.symm, hm, rfl, rfl, rfl, rfl⟩,
        rfl⟩

end PrivateKeyClient.PrivateKeyClientUtils

namespace KeySplitUtil

open PrivateKeyClient PrivateKeyClientUtils

/-- Whatever the pads, `xorSplitBytes` splits a non-empty message into
`numPieces` pieces as long as the message; in any order, `reconstructXorBytes`
puts them back together as the message, and `ConstructPrivateKey` over
decrypt results holding them gives a key whose secret is the message. Both
reject pieces of more than one length. -/
theorem xorSplitBytes_reconstructs (random : Nat → Nat → UInt8) {message : List UInt8}
    (hm : message ≠ []) {numPieces : Int32} (hn : 1 ≤ numPieces.toInt) :
    ∃ pieces, xorSplitBytes random message numPieces = .ok pieces ∧
      pieces.length = numPieces.toInt.toNat ∧
      (∀ piece ∈ pieces, piece.length = message.length) ∧
      (∀ order : List (List UInt8), order.Perm pieces → reconstructXorBytes order = .ok message) ∧
      (∀ decryptResults : List DecryptResult,
        (decryptResults.map DecryptResult.plaintext).Perm pieces →
          ∃ key, constructPrivateKey decryptResults = .ok key ∧ key.privateKey = message) ∧
      (∀ order : List (List UInt8), (∃ p ∈ order, ∃ q ∈ order, p.length ≠ q.length) →
        reconstructXorBytes order =
          .error (.illegalArgument "Input ByteString list has mismatched sizes.")) ∧
      (∀ decryptResults : List DecryptResult,
        (∃ d ∈ decryptResults, ∃ d' ∈ decryptResults, d.plaintext.length ≠ d'.plaintext.length) →
          constructPrivateKey decryptResults =
            .error scPrivateKeyClientProviderSecretPieceSizeUnmatched) := by
  have hpads := @length_of_mem_randomPads random message.length 0 (numPieces - 1).toInt.toNat
  refine ⟨_, xorSplitBytes_eq random message numPieces, ?_, length_of_mem_shares hpads,
    fun _ hperm => reconstructXorBytes_of_perm_shares hpads hperm,
    fun _ hperm => constructPrivateKey_of_perm_shares hm hpads hperm,
    fun _ h => reconstructXorBytes_of_length_ne h, fun _ h => constructPrivateKey_of_length_ne h⟩
  -- one piece per pad, and the XOR-ed message
  rw [length_shares, randomPads, List.length_map, List.length_range', toNat_sub_one hn]
  omega

theorem xorSplitBytes_reconstructs_three :
    ([7, 42] : List UInt8) ≠ [] ∧ 1 ≤ (3 : Int32).toInt ∧
    ∃ pieces, xorSplitBytes (fun i j => (i + j).toUInt8) [7, 42] 3 = .ok pieces ∧
      pieces.length = (3 : Int32).toInt.toNat ∧
      (∀ piece ∈ pieces, piece.length = ([7, 42] : List UInt8).length) ∧
      (∀ order : List (List UInt8), order.Perm pieces → reconstructXorBytes order = .ok [7, 42]) ∧
      (∀ decryptResults : List DecryptResult,
        (decryptResults.map DecryptResult.plaintext).Perm pieces →
          ∃ key, constructPrivateKey decryptResults = .ok key ∧ key.privateKey = [7, 42]) ∧
      (∀ order : List (List UInt8), (∃ p ∈ order, ∃ q ∈ order, p.length ≠ q.length) →
        reconstructXorBytes order =
          .error (.illegalArgument "Input ByteString list has mismatched sizes.")) ∧
      (∀ decryptResults : List DecryptResult,
        (∃ d ∈ decryptResults, ∃ d' ∈ decryptResults, d.plaintext.length ≠ d'.plaintext.length) →
          constructPrivateKey decryptResults =
            .error scPrivateKeyClientProviderSecretPieceSizeUnmatched) :=
  ⟨by decide, by decide, xorSplitBytes_reconstructs _ (by decide) (by decide)⟩

end KeySplitUtil

end ControlPlane
