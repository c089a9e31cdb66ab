import Mathlib

/-!
# Memory as cells by index, and little-endian numbers stored in it

A memory is a function from indices to cells. `read mem start n` is the
list of the `n` cells from `start` on, `write mem start xs` the memory with
those cells overwritten by `xs`; a read of what was written gives it back,
and a read or a cell outside the written range does not see the write.

A number of `w` bytes is stored least significant byte first: `bytes w n`
are its bytes and `value bs` the number that bytes spell.
-/

namespace ControlPlane.Memory

variable {α : Type*}

/-- The `n` cells from `start` on. -/
def read (mem : Nat → α) (start n : Nat) : List α :=
  (List.range n).map fun k => mem (start + k)

/-- The memory with the cells from `start` on overwritten by `xs`. -/
def write (mem : Nat → α) (start : Nat) (xs : List α) : Nat → α :=
  fun i => if start ≤ i then (xs[i - start]?).getD (mem i) else mem i

@[simp] theorem write_nil (mem : Nat → α) (start : Nat) : write mem start [] = mem := by
  funext i
  simp [write]

@[simp] theorem length_read (mem : Nat → α) (start n : Nat) :
    (read mem start n).length = n := by
  simp [read]

theorem getElem_read (mem : Nat → α) (start n k : Nat) (hk : k < (read mem start n).length) :
    (read mem start n)[k] = mem (start + k) := by
  simp [read]

@[simp] theorem read_zero (mem : Nat → α) (start : Nat) : read mem start 0 = [] := rfl

theorem read_succ (mem : Nat → α) (start n : Nat) :
    read mem start (n + 1) = mem start :: read mem (start + 1) n := by
  simp only [read, List.range_succ_eq_map, List.map_cons, List.map_map, Nat.add_zero]
  congr 1
  apply List.map_congr_left
  intro k _
  simp only [Function.comp_apply]
  congr 1
  omega

theorem read_add (mem : Nat → α) (start m n : Nat) :
    read mem start (m + n) = read mem start m ++ read mem (start + m) n := by
  simp only [read, List.range_add, List.map_append, List.map_map]
  congr 1
  apply List.map_congr_left
  intro k _
  simp only [Function.comp_apply]
  congr 1
  omega

/-- A read of two parts one after the other reads each part in its place. -/
theorem read_append_eq {mem : Nat → α} {start n : Nat} {xs ys : List α}
    (h : read mem start n = xs ++ ys) :
    read mem start xs.length = xs ∧ read mem (start + xs.length) ys.length = ys := by
  have hn : n = xs.length + ys.length := by
    rw [← length_read mem start n, h, List.length_append]
  subst hn
  rw [read_add] at h
  exact List.append_inj h (by simp)

/-- Two memories that agree on the cells read give the same read. -/
theorem read_congr {mem mem' : Nat → α} {start n : Nat}
    (h : ∀ k < n, mem (start + k) = mem' (start + k)) : read mem start n = read mem' start n := by
  apply List.map_congr_left
  intro k hk
  exact h k (List.mem_range.mp hk)

theorem write_of_lt {mem : Nat → α} {start i : Nat} (xs : List α) (hi : i < start) :
    write mem start xs i = mem i := by
  simp [write, Nat.not_le.mpr hi]

theorem write_of_le {mem : Nat → α} {start i : Nat} {xs : List α} (hi : start + xs.length ≤ i) :
    write mem start xs i = mem i := by
  have hnone : xs[i - start]? = none := List.getElem?_eq_none (by omega)
  simp [write, hnone]

theorem write_of_mem {mem : Nat → α} {start k : Nat} {xs : List α} (hk : k < xs.length) :
    write mem start xs (start + k) = xs[k] := by
  simp [write, List.getElem?_eq_getElem hk]

/-- A read of the written range gives what was written. -/
@[simp] theorem read_write_self (mem : Nat → α) (start : Nat) (xs : List α) :
    read (write mem start xs) start xs.length = xs := by
  apply List.ext_getElem (by simp)
  intro k hk _
  rw [getElem_read, write_of_mem (by simpa using hk)]

/-- A read that ends before the written range does not see the write. -/
theorem read_write_of_le {mem : Nat → α} {start a n : Nat} (xs : List α) (h : a + n ≤ start) :
    read (write mem start xs) a n = read mem a n :=
  read_congr fun _ _ => write_of_lt xs (by omega)

/-- A read that starts after the written range does not see the write. -/
theorem read_write_of_ge {mem : Nat → α} {start a n : Nat} {xs : List α}
    (h : start + xs.length ≤ a) : read (write mem start xs) a n = read mem a n :=
  read_congr fun _ _ => write_of_le (by omega)

/-- Writing `xs ++ ys` is writing `xs`, then `ys` right after it. -/
theorem write_append (mem : Nat → α) (start : Nat) (xs ys : List α) :
    write mem start (xs ++ ys) = write (write mem start xs) (start + xs.length) ys := by
  funext i
  by_cases hlo : i < start
  · rw [write_of_lt _ hlo, write_of_lt _ (by omega), write_of_lt _ hlo]
  · by_cases hmid : i < start + xs.length
    · obtain ⟨k, rfl⟩ : ∃ k, i = start + k := ⟨i - start, by omega⟩
      have hk : k < xs.length := by omega
      rw [write_of_lt _ hmid, write_of_mem (by simp; omega), write_of_mem hk,
        List.getElem_append_left hk]
    · obtain ⟨k, rfl⟩ : ∃ k, i = start + xs.length + k := ⟨i - start - xs.length, by omega⟩
      by_cases hk : k < ys.length
      · rw [write_of_mem hk, Nat.add_assoc, write_of_mem (by simp; omega),
          List.getElem_append_right (by omega)]
        simp
      · have hlen : (xs ++ ys).length = xs.length + ys.length := List.length_append
        rw [write_of_le (by omega), write_of_le (by omega), write_of_le (by omega)]

/-! ## What a run of writes leaves alone -/

/-- `mem'` holds what `mem` holds outside the cells from `lo` to `hi`. -/
def Unchanged (lo hi : Nat) (mem mem' : Nat → α) : Prop :=
  ∀ i, i < lo ∨ hi ≤ i → mem' i = mem i

theorem Unchanged.refl (lo hi : Nat) (mem : Nat → α) : Unchanged lo hi mem mem :=
  fun _ _ => rfl

theorem Unchanged.trans {lo hi : Nat} {mem mem' mem'' : Nat → α} (h₁ : Unchanged lo hi mem mem')
    (h₂ : Unchanged lo hi mem' mem'') : Unchanged lo hi mem mem'' :=
  fun i hi' => (h₂ i hi').trans (h₁ i hi')

theorem Unchanged.mono {lo hi lo' hi' : Nat} {mem mem' : Nat → α} (h : Unchanged lo hi mem mem')
    (hlo : lo' ≤ lo) (hhi : hi ≤ hi') : Unchanged lo' hi' mem mem' :=
  fun i hi'' => h i (by omega)

theorem unchanged_write (mem : Nat → α) (start : Nat) (xs : List α) :
    Unchanged start (start + xs.length) mem (write mem start xs) := by
  intro i hi
  rcases hi with hi | hi
  · exact write_of_lt xs hi
  · exact write_of_le hi

/-- A read outside the range sees the memory as it was. -/
theorem Unchanged.read_eq {lo hi a n : Nat} {mem mem' : Nat → α} (h : Unchanged lo hi mem mem')
    (hr : a + n ≤ lo ∨ hi ≤ a) : read mem' a n = read mem a n :=
  read_congr fun _ _ => h _ (by omega)

/-- What was written stays readable while later changes stay past it. -/
theorem read_write_of_unchanged {mem mem' : Nat → α} {start n hi : Nat} {xs : List α}
    (hn : xs.length = n) (h : Unchanged (start + n) hi (write mem start xs) mem') :
    read mem' start n = xs := by
  subst hn
  rw [h.read_eq (.inl (Nat.le_refl _)), read_write_self]

/-! ## Little-endian numbers -/

/-- The `w` low bytes of `n`, least significant first. -/
def bytes : Nat → Nat → List UInt8
  | 0, _ => []
  | w + 1, n => (n % 256).toUInt8 :: bytes w (n / 256)

/-- The number that the bytes spell, least significant first. -/
def value : List UInt8 → Nat
  | [] => 0
  | b :: bs => b.toNat + 256 * value bs

@[simp] theorem length_bytes (w n : Nat) : (bytes w n).length = w := by
  induction w generalizing n with
  | zero => rfl
  | succ w ih => simp [bytes, ih]

/-- The first `m + n` bytes of `x` are its first `m`, then the first `n` of
what lies above them. -/
theorem bytes_add (m n x : Nat) : bytes (m + n) x = bytes m x ++ bytes n (x / 256 ^ m) := by
  induction m generalizing x with
  | zero => simp [bytes]
  | succ m ih =>
      rw [Nat.add_right_comm, bytes, bytes, ih, Nat.pow_succ', ← Nat.div_div_eq_div_mul]
      rfl

/-- Only the value modulo the range of `w` bytes shows in them. -/
theorem bytes_mod (w x : Nat) : bytes w (x % 256 ^ w) = bytes w x := by
  induction w generalizing x with
  | zero => rfl
  | succ w ih =>
      have hlow : x % 256 ^ (w + 1) % 256 = x % 256 :=
        Nat.mod_mod_of_dvd x (Nat.dvd_of_mod_eq_zero (by rw [Nat.pow_succ, Nat.mul_mod_left]))
      have hhigh : x % 256 ^ (w + 1) / 256 = x / 256 % 256 ^ w := by
        rw [Nat.pow_succ', Nat.mod_mul_right_div_self]
      rw [bytes, bytes, hlow, hhigh, ih]

/-- The bytes of `n` spell `n` modulo the range of `w` bytes. -/
theorem value_bytes (w n : Nat) : value (bytes w n) = n % 256 ^ w := by
  induction w generalizing n with
  | zero => simp [bytes, value, Nat.mod_one]
  | succ w ih =>
      have hlow : ((n % 256).toUInt8).toNat = n % 256 := by
        simp [Nat.mod_mod_of_dvd]
      rw [bytes, value, hlow, ih, Nat.pow_succ', Nat.mod_mul]

/-- The bytes of `xs ++ ys` spell the number of `xs` plus that of `ys`
shifted past the bytes of `xs`. -/
theorem value_append (xs ys : List UInt8) :
    value (xs ++ ys) = value xs + 256 ^ xs.length * value ys := by
  induction xs with
  | nil => simp [value]
  | cons x xs ih =>
      rw [List.cons_append, value, value, ih, List.length_cons, Nat.pow_succ']
      rw [Nat.mul_add, Nat.mul_assoc]
      omega

/-- Two numbers whose bits do not overlap: a low part below `2 ^ k` or-ed
with a high part shifted by `k` is their sum. -/
theorem or_shiftLeft_eq_add {a : Nat} (b : Nat) {k : Nat} (ha : a < 2 ^ k) :
    a ||| (b <<< k) = a + 2 ^ k * b := by
  rw [Nat.or_comm, ← Nat.shiftLeft_add_eq_or_of_lt ha, Nat.shiftLeft_eq, Nat.mul_comm,
    Nat.add_comm]

theorem value_lt (bs : List UInt8) : value bs < 256 ^ bs.length := by
  induction bs with
  | nil => simp [value]
  | cons b bs ih =>
      have hb := b.toNat_lt
      rw [value, List.length_cons, Nat.pow_succ']
      omega

end ControlPlane.Memory
