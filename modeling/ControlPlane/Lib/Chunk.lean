import Mathlib.Data.List.Basic

/-!
# Cutting an index range into chunks

A reader that hands out the inclusive index range `[lo, hi]` of a sequence
in pieces of at most `size` indices, each piece starting right after the one
before it and every piece but the last full, produces one list of pieces
only: `Chunked size lo hi ps`. A loop that builds the pieces front to back
keeps `Extends`: the pieces so far are full, and any chunking of what is
left completes them.

The bytes of a piece are a `slice` of the sequence; the slices of a
chunking concatenate to the slice of the whole range.
-/

namespace ControlPlane.Chunk

variable {α : Type*}

/-- The elements at the indices `lo` to `hi`, both included, cut at the
end of the list. -/
def slice (xs : List α) (lo hi : Nat) : List α := (xs.drop lo).take (hi + 1 - lo)

theorem length_slice (xs : List α) (lo hi : Nat) :
    (slice xs lo hi).length = min (hi + 1 - lo) (xs.length - lo) := by
  simp [slice]

theorem slice_append_slice (xs : List α) {lo m hi : Nat} (h₁ : lo ≤ m + 1) (h₂ : m ≤ hi) :
    slice xs lo m ++ slice xs (m + 1) hi = slice xs lo hi := by
  have hsplit : hi + 1 - lo = (m + 1 - lo) + (hi - m) := by omega
  have hdrop : (xs.drop lo).drop (m + 1 - lo) = xs.drop (m + 1) := by
    rw [List.drop_drop]
    congr 1
    omega
  rw [slice, slice, slice, hsplit, List.take_add, hdrop]
  congr 2
  omega

theorem take_slice (xs : List α) {lo hi n : Nat} (hn : 0 < n) (h : n ≤ hi + 1 - lo) :
    (slice xs lo hi).take n = slice xs lo (lo + n - 1) := by
  simp only [slice, List.take_take]
  congr 1
  omega

theorem drop_slice (xs : List α) (lo hi n : Nat) :
    (slice xs lo hi).drop n = slice xs (lo + n) hi := by
  simp only [slice, List.drop_take, List.drop_drop]
  congr 1
  omega

/-- Cutting the range at the list's last index changes nothing. -/
theorem slice_min_length (xs : List α) {lo : Nat} (hi : Nat) (h : lo < xs.length) :
    slice xs lo (min hi (xs.length - 1)) = slice xs lo hi := by
  simp only [slice]
  rw [List.take_eq_take_iff, List.length_drop]
  omega

theorem slice_length_sub_one (xs : List α) : slice xs 0 (xs.length - 1) = xs := by
  cases xs with
  | nil => rfl
  | cons x xs => simp [slice]

/-- `ps` cuts `[lo, hi]` into pieces of `size` indices, the last one of at
most `size`. -/
inductive Chunked (size : Nat) : Nat → Nat → List (Nat × Nat) → Prop
  | last {lo hi : Nat} : lo ≤ hi → hi < lo + size → Chunked size lo hi [(lo, hi)]
  | cons {lo hi : Nat} {ps : List (Nat × Nat)} :
      lo + size ≤ hi → Chunked size (lo + size) hi ps →
        Chunked size lo hi ((lo, lo + size - 1) :: ps)

namespace Chunked

variable {size : Nat}

theorem size_pos {lo hi : Nat} {ps : List (Nat × Nat)} (h : Chunked size lo hi ps) :
    0 < size := by
  induction h with
  | last hle hlt => omega
  | cons _ _ ih => exact ih

/-- A range has one chunking: whether the first piece is the last is fixed
by the range. -/
theorem unique {lo hi : Nat} {ps qs : List (Nat × Nat)} (hp : Chunked size lo hi ps)
    (hq : Chunked size lo hi qs) : ps = qs := by
  induction hp generalizing qs with
  | last hle hlt =>
      cases hq with
      | last => rfl
      | cons hle' _ => omega
  | cons hle _ ih =>
      cases hq with
      | last _ hlt' => omega
      | cons _ hq' => rw [ih hq']

/-- Every piece is a nonempty range of at most `size` indices inside
`[lo, hi]`. -/
theorem mem_bounds {lo hi : Nat} {ps : List (Nat × Nat)} (h : Chunked size lo hi ps) :
    ∀ p ∈ ps, lo ≤ p.1 ∧ p.1 ≤ p.2 ∧ p.2 ≤ hi ∧ p.2 + 1 - p.1 ≤ size := by
  induction h with
  | last hle hlt =>
      intro p hp
      rw [List.mem_singleton] at hp
      subst hp
      omega
  | cons hle htail ih =>
      have hpos := htail.size_pos
      intro p hp
      rcases List.mem_cons.mp hp with rfl | hp
      · omega
      · have := ih p hp
        omega

/-- The pieces' slices put together are the slice of the whole range. -/
theorem flatten_slice (xs : List α) {lo hi : Nat} {ps : List (Nat × Nat)}
    (h : Chunked size lo hi ps) : (ps.map fun p => slice xs p.1 p.2).flatten = slice xs lo hi := by
  induction h with
  | last => simp
  | @cons a b ps hle htail ih =>
      have hpos := htail.size_pos
      have h : slice xs a (a + size - 1) ++ slice xs (a + size - 1 + 1) b = slice xs a b :=
        slice_append_slice xs (by omega) (by omega)
      rw [Nat.sub_add_cancel (by omega : 1 ≤ a + size)] at h
      rw [List.map_cons, List.flatten_cons, ih, h]

end Chunked

/-- The pieces `acc` cover `[lo, cur)` with full pieces: a chunking of
`[cur, hi]` after them is one of `[lo, hi]`. -/
def Extends (size lo hi cur : Nat) (acc : List (Nat × Nat)) : Prop :=
  ∀ rest, Chunked size cur hi rest → Chunked size lo hi (acc ++ rest)

namespace Extends

variable {size lo hi cur : Nat} {acc : List (Nat × Nat)}

theorem start (size lo hi : Nat) : Extends size lo hi lo [] := fun _ h => h

/-- A full piece that leaves indices over extends the run. -/
theorem full (h : Extends size lo hi cur acc) (hle : cur + size ≤ hi) :
    Extends size lo hi (cur + size) (acc ++ [(cur, cur + size - 1)]) := by
  intro rest hrest
  rw [List.append_assoc, List.singleton_append]
  exact h _ (.cons hle hrest)

/-- The piece that reaches `hi` ends the chunking. -/
theorem finish (h : Extends size lo hi cur acc) (hle : cur ≤ hi) (hlt : hi < cur + size) :
    Chunked size lo hi (acc ++ [(cur, hi)]) :=
  h _ (.last hle hlt)

end Extends

end ControlPlane.Chunk
