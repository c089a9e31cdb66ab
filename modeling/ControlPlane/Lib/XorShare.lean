import Mathlib.Data.List.Perm.Basic

/-!
# Bytewise XOR and XOR secret sharing

A secret of `n` bytes is shared as pads of `n` bytes each and the secret
XOR-ed with all of them. The XOR of all the shares, in any order, is the
secret again, and a fold that starts from one share and XORs in the others
computes that XOR.
-/

namespace ControlPlane.XorShare

/-- Bytewise XOR, as long as the shorter operand. -/
def bytewiseXor (a b : List UInt8) : List UInt8 := List.zipWith (fun x y => x ^^^ y) a b

@[simp] theorem length_bytewiseXor (a b : List UInt8) :
    (bytewiseXor a b).length = min a.length b.length := List.length_zipWith

theorem bytewiseXor_comm (a b : List UInt8) : bytewiseXor a b = bytewiseXor b a := by
  apply List.ext_getElem (by simp [Nat.min_comm])
  intro i h₁ h₂
  simp only [bytewiseXor, List.getElem_zipWith]
  exact UInt8.xor_comm _ _

theorem bytewiseXor_assoc (a b c : List UInt8) :
    bytewiseXor (bytewiseXor a b) c = bytewiseXor a (bytewiseXor b c) := by
  apply List.ext_getElem (by simp [Nat.min_assoc])
  intro i h₁ h₂
  simp only [bytewiseXor, List.getElem_zipWith, UInt8.xor_assoc]

/-- The swap law that makes a fold of XORs independent of the order. -/
theorem bytewiseXor_right_comm (z x y : List UInt8) :
    bytewiseXor (bytewiseXor z x) y = bytewiseXor (bytewiseXor z y) x := by
  rw [bytewiseXor_assoc, bytewiseXor_comm x y, ← bytewiseXor_assoc]

theorem bytewiseXor_self (a : List UInt8) : bytewiseXor a a = List.replicate a.length 0 := by
  apply List.ext_getElem (by simp)
  intro i h₁ h₂
  simp only [bytewiseXor, List.getElem_zipWith, UInt8.xor_self, List.getElem_replicate]

theorem bytewiseXor_replicate_zero {a : List UInt8} {n : Nat} (h : a.length ≤ n) :
    bytewiseXor a (List.replicate n 0) = a := by
  apply List.ext_getElem (by simp; omega)
  intro i h₁ h₂
  simp only [bytewiseXor, List.getElem_zipWith, List.getElem_replicate, UInt8.xor_zero]

theorem replicate_zero_bytewiseXor {a : List UInt8} {n : Nat} (h : a.length ≤ n) :
    bytewiseXor (List.replicate n 0) a = a := by
  rw [bytewiseXor_comm, bytewiseXor_replicate_zero h]

/-- The XOR of all the pieces, each of `size` bytes. -/
def xorAll (size : Nat) (pieces : List (List UInt8)) : List UInt8 :=
  pieces.foldl bytewiseXor (List.replicate size 0)

section Pieces

variable {size : Nat} {pieces : List (List UInt8)}

theorem length_foldl_bytewiseXor {acc : List UInt8} (hacc : acc.length = size)
    (hall : ∀ p ∈ pieces, p.length = size) : (pieces.foldl bytewiseXor acc).length = size := by
  induction pieces generalizing acc with
  | nil => exact hacc
  | cons p ps ih =>
      rw [List.foldl_cons]
      apply ih (by simp [hacc, hall p (by simp)])
      exact fun q hq => hall q (List.mem_cons_of_mem _ hq)

theorem length_xorAll (hall : ∀ p ∈ pieces, p.length = size) : (xorAll size pieces).length = size :=
  length_foldl_bytewiseXor (List.length_replicate) hall

/-- The XOR of all the pieces does not depend on their order. -/
theorem xorAll_perm {pieces' : List (List UInt8)} (hp : pieces.Perm pieces') :
    xorAll size pieces = xorAll size pieces' :=
  hp.foldl_eq' (fun x _ y _ z => bytewiseXor_right_comm z x y) _

/-- A fold of the pieces into an accumulator of their size XORs the
accumulator with the XOR of all of them. -/
theorem foldl_bytewiseXor_eq {acc : List UInt8} (hacc : acc.length = size)
    (hall : ∀ p ∈ pieces, p.length = size) :
    pieces.foldl bytewiseXor acc = bytewiseXor acc (xorAll size pieces) := by
  induction pieces generalizing acc with
  | nil => exact (bytewiseXor_replicate_zero (Nat.le_of_eq hacc)).symm
  | cons p ps ih =>
      have hps : ∀ q ∈ ps, q.length = size := fun q hq => hall q (List.mem_cons_of_mem _ hq)
      have hp : p.length = size := hall p (by simp)
      -- both sides XOR `acc`, `p` and the rest; the rest by the induction
      calc (p :: ps).foldl bytewiseXor acc
          = bytewiseXor (bytewiseXor acc p) (xorAll size ps) :=
            ih (by simp [hacc, hp]) hps
        _ = bytewiseXor acc (bytewiseXor p (xorAll size ps)) := bytewiseXor_assoc _ _ _
        _ = bytewiseXor acc (ps.foldl bytewiseXor p) := by rw [ih hp hps]
        _ = bytewiseXor acc (xorAll size (p :: ps)) := by
            rw [xorAll, List.foldl_cons, replicate_zero_bytewiseXor (Nat.le_of_eq hp)]

/-- A fold that starts from one piece computes the XOR of all of them. -/
theorem foldl_eq_xorAll {first : List UInt8} (hfirst : first.length = size) :
    pieces.foldl bytewiseXor first = xorAll size (first :: pieces) := by
  rw [xorAll, List.foldl_cons, replicate_zero_bytewiseXor (Nat.le_of_eq hfirst)]

end Pieces

/-- The shares of a secret: the pads, then the secret XOR-ed with each. -/
def shares (secret : List UInt8) (pads : List (List UInt8)) : List (List UInt8) :=
  pads ++ [pads.foldl bytewiseXor secret]

theorem length_shares (secret : List UInt8) (pads : List (List UInt8)) :
    (shares secret pads).length = pads.length + 1 := by
  simp [shares]

theorem length_of_mem_shares {secret : List UInt8} {pads : List (List UInt8)}
    (hpads : ∀ p ∈ pads, p.length = secret.length) :
    ∀ share ∈ shares secret pads, share.length = secret.length := by
  intro share hshare
  rw [shares, List.mem_append, List.mem_singleton] at hshare
  rcases hshare with hpad | rfl
  · exact hpads share hpad
  · exact length_foldl_bytewiseXor rfl hpads

/-- The XOR of all the shares, in any order, is the secret. -/
theorem xorAll_shares {secret : List UInt8} {pads : List (List UInt8)}
    (hpads : ∀ p ∈ pads, p.length = secret.length) :
    xorAll secret.length (shares secret pads) = secret := by
  have hx := length_xorAll hpads
  -- the pads' XOR meets itself in the last share and cancels
  calc xorAll secret.length (shares secret pads)
      = bytewiseXor (xorAll secret.length pads) (pads.foldl bytewiseXor secret) := by
        rw [shares, xorAll, List.foldl_append, List.foldl_cons, List.foldl_nil]
        rfl
    _ = bytewiseXor (xorAll secret.length pads)
          (bytewiseXor secret (xorAll secret.length pads)) := by
        rw [foldl_bytewiseXor_eq rfl hpads]
    _ = bytewiseXor secret
          (bytewiseXor (xorAll secret.length pads) (xorAll secret.length pads)) := by
        rw [← bytewiseXor_assoc, bytewiseXor_comm (xorAll _ _) secret, bytewiseXor_assoc]
    _ = secret := by
        rw [bytewiseXor_self, bytewiseXor_replicate_zero (Nat.le_of_eq hx.symm)]

/-! ## A fold that checks each piece's length -/

section CheckedFold

variable {ε α : Type*}

/-- `step` XORs a piece into what it holds so far when the two are of one
length, and fails with `e` otherwise. -/
def ChecksLength (e : ε) (piece : α → List UInt8) (step : List UInt8 → α → Except ε (List UInt8)) :
    Prop :=
  ∀ acc x, step acc x =
    if acc.length = (piece x).length then .ok (bytewiseXor acc (piece x)) else .error e

variable {e : ε} {piece : α → List UInt8} {step : List UInt8 → α → Except ε (List UInt8)}

/-- Over pieces all as long as the start, the checked fold XORs them all in. -/
theorem ChecksLength.foldlM_eq_ok (h : ChecksLength e piece step) {xs : List α} {acc : List UInt8}
    (hall : ∀ x ∈ xs, (piece x).length = acc.length) :
    xs.foldlM step acc = .ok ((xs.map piece).foldl bytewiseXor acc) := by
  induction xs generalizing acc with
  | nil => rfl
  | cons x xs ih =>
      have hx : acc.length = (piece x).length := (hall x (by simp)).symm
      have hxs : ∀ y ∈ xs, (piece y).length = (bytewiseXor acc (piece x)).length := by
        intro y hy
        rw [hall y (List.mem_cons_of_mem _ hy), length_bytewiseXor, ← hx, Nat.min_self]
      rw [List.foldlM_cons, h, if_pos hx]
      exact ih hxs

/-- A piece of another length than the start makes the checked fold fail. -/
theorem ChecksLength.foldlM_eq_error (h : ChecksLength e piece step) {xs : List α}
    {acc : List UInt8} (hsome : ∃ x ∈ xs, (piece x).length ≠ acc.length) :
    xs.foldlM step acc = .error e := by
  induction xs generalizing acc with
  | nil => simp at hsome
  | cons x xs ih =>
      rw [List.foldlM_cons, h]
      by_cases hx : acc.length = (piece x).length
      · -- the XOR so far keeps the start's length, so the odd piece is further on
        rw [if_pos hx]
        apply ih
        obtain ⟨y, hy, hne⟩ := hsome
        rcases List.mem_cons.mp hy with rfl | hy
        · exact absurd hx.symm hne
        · exact ⟨y, hy, by rw [length_bytewiseXor, ← hx, Nat.min_self]; exact hne⟩
      · rw [if_neg hx]
        rfl

end CheckedFold

end ControlPlane.XorShare
