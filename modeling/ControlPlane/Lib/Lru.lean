import Mathlib.Data.List.Nodup

/-!
# A reference least-recently-used cache

The cache is its key/value pairs, freshest first. Setting a key puts its
pair in front; a new key at capacity first drops the last pair, the least
recently used. Getting a present key moves its pair to the front as well.

The keys the cache holds after a step depend only on the keys before it and
the key of the step, never on the values: two caches over different values
that see the same keys hold the same keys.
-/

namespace ControlPlane.Lru

variable {κ ν μ : Type*}

/-- The keys, freshest first. -/
def keys (l : List (κ × ν)) : List κ := l.map Prod.fst

/-- A well-formed cache: distinct keys, and at most `capacity` pairs. -/
structure Wf (capacity : Nat) (l : List (κ × ν)) : Prop where
  nodup : (keys l).Nodup
  length_le : l.length ≤ capacity

@[simp] theorem keys_nil : keys ([] : List (κ × ν)) = [] := rfl

@[simp] theorem keys_cons (p : κ × ν) (l : List (κ × ν)) : keys (p :: l) = p.1 :: keys l := rfl

theorem keys_dropLast (l : List (κ × ν)) : keys l.dropLast = (keys l).dropLast := by
  simp [keys, List.map_dropLast]

theorem length_keys (l : List (κ × ν)) : (keys l).length = l.length := List.length_map _

theorem Wf.nil (capacity : Nat) : Wf capacity ([] : List (κ × ν)) :=
  ⟨List.nodup_nil, Nat.zero_le _⟩

variable [DecidableEq κ]

/-- The pairs of every other key. -/
def without (k : κ) (l : List (κ × ν)) : List (κ × ν) := l.filter fun p => p.1 != k

/-- Set: the pair goes to the front; a new key at capacity first drops the
least recently used pair. -/
def set (capacity : Nat) (k : κ) (v : ν) (l : List (κ × ν)) : List (κ × ν) :=
  if k ∈ keys l then (k, v) :: without k l
  else if l.length = capacity then (k, v) :: l.dropLast
  else (k, v) :: l

/-- Get of a present key: its value, and its pair moved to the front. -/
def get (k : κ) (l : List (κ × ν)) : Option (ν × List (κ × ν)) :=
  (l.lookup k).map fun v => (v, (k, v) :: without k l)

theorem keys_without (k : κ) (l : List (κ × ν)) :
    keys (without k l) = (keys l).filter fun x => x != k := by
  simp only [keys, without, List.filter_map]
  rfl

theorem not_mem_keys_without (k : κ) (l : List (κ × ν)) : k ∉ keys (without k l) := by
  simp [keys_without]

theorem length_without_lt {k : κ} {l : List (κ × ν)} (h : k ∈ keys l) :
    (without k l).length < l.length := by
  obtain ⟨p, hp, rfl⟩ := List.mem_map.mp h
  exact List.length_filter_lt_length_iff_exists.mpr ⟨p, hp, by simp⟩

theorem lookup_isSome_iff {k : κ} {l : List (κ × ν)} : (l.lookup k).isSome ↔ k ∈ keys l := by
  simp [keys, List.lookup_isSome_iff]

/-- A set puts the pair in front of what is left of the cache. -/
theorem set_eq_cons (capacity : Nat) (k : κ) (v : ν) (l : List (κ × ν)) :
    set capacity k v l = (k, v) ::
      if k ∈ keys l then without k l else if l.length = capacity then l.dropLast else l := by
  unfold set
  split_ifs <;> rfl

theorem set_of_mem {capacity : Nat} {k : κ} {l : List (κ × ν)} (v : ν) (h : k ∈ keys l) :
    set capacity k v l = (k, v) :: without k l := if_pos h

/-- Getting a present key is setting it to its own value. -/
theorem get_eq_set {k : κ} {l : List (κ × ν)} {v : ν} (capacity : Nat) (h : l.lookup k = some v) :
    get k l = some (v, set capacity k v l) := by
  have hk : k ∈ keys l := lookup_isSome_iff.mp (by rw [h]; rfl)
  simp [get, h, set_of_mem v hk]

theorem without_of_not_mem {k : κ} {l : List (κ × ν)} (h : k ∉ keys l) : without k l = l := by
  refine List.filter_eq_self.mpr fun p hp => ?_
  have hne : p.1 ≠ k := fun he => h (he ▸ List.mem_map_of_mem hp)
  simpa using hne

theorem without_without (k : κ) (l : List (κ × ν)) : without k (without k l) = without k l := by
  simp [without, List.filter_filter]

/-- Setting a key twice is setting it once, to the second value. -/
theorem set_set (capacity : Nat) (k : κ) (v w : ν) (l : List (κ × ν)) :
    set capacity k w (set capacity k v l) = set capacity k w l := by
  have hmem : k ∈ keys (set capacity k v l) := by
    rw [set_eq_cons, keys_cons]
    exact List.mem_cons_self
  rw [set_of_mem w hmem, set_eq_cons capacity k v l, set_eq_cons capacity k w l]
  congr 1
  unfold without
  rw [List.filter_cons_of_neg (by simp)]
  split
  · exact without_without k l
  · next hk =>
      split
      · exact without_of_not_mem fun hm => hk (List.dropLast_subset _ (by rwa [keys_dropLast] at hm))
      · exact without_of_not_mem hk

theorem lookup_set_self (capacity : Nat) (k : κ) (v : ν) (l : List (κ × ν)) :
    (set capacity k v l).lookup k = some v := by
  rw [set_eq_cons]
  simp

/-- A get that answers is the set of the key to the value it read. -/
theorem get_eq_some {k : κ} {l l' : List (κ × ν)} {v : ν} (h : get k l = some (v, l'))
    (capacity : Nat) : l.lookup k = some v ∧ l' = set capacity k v l := by
  cases hl : l.lookup k with
  | none => simp [get, hl] at h
  | some w =>
      rw [get_eq_set capacity hl, Option.some.injEq, Prod.mk.injEq] at h
      obtain ⟨rfl, rfl⟩ := h
      exact ⟨rfl, rfl⟩

namespace Wf

variable {capacity : Nat} {l : List (κ × ν)}

/-- Moving a present key's pair to the front keeps the cache well formed. -/
theorem moveToFront (h : Wf capacity l) {k : κ} (hk : k ∈ keys l) (v : ν) :
    Wf capacity ((k, v) :: without k l) := by
  refine ⟨?_, ?_⟩
  · rw [keys_cons, keys_without]
    exact List.nodup_cons.mpr ⟨by simp, h.nodup.filter _⟩
  · have := length_without_lt hk
    have := h.length_le
    simp only [List.length_cons]
    omega

/-- A set keeps the cache well formed, when it can hold a pair at all. -/
theorem set (hc : 0 < capacity) (h : Wf capacity l) (k : κ) (v : ν) :
    Wf capacity (Lru.set capacity k v l) := by
  unfold Lru.set
  split
  · next hk => exact h.moveToFront hk v
  · next hk =>
      split
      · next hlen =>
          refine ⟨?_, ?_⟩
          · rw [keys_cons, keys_dropLast]
            exact List.nodup_cons.mpr
              ⟨fun hm => hk (List.dropLast_subset _ hm), h.nodup.sublist (List.dropLast_sublist _)⟩
          · simp only [List.length_cons, List.length_dropLast]
            omega
      · next hlen =>
          refine ⟨List.nodup_cons.mpr ⟨hk, h.nodup⟩, ?_⟩
          have := h.length_le
          simp only [List.length_cons]
          omega

/-- A get keeps the cache well formed. -/
theorem get (h : Wf capacity l) {k : κ} {v : ν} {l' : List (κ × ν)}
    (hg : Lru.get k l = some (v, l')) : Wf capacity l' := by
  cases hl : l.lookup k with
  | none => simp [Lru.get, hl] at hg
  | some w =>
      have hk : k ∈ keys l := lookup_isSome_iff.mp (by rw [hl]; rfl)
      rw [get_eq_set capacity hl, set_of_mem w hk, Option.some.injEq, Prod.mk.injEq] at hg
      obtain ⟨rfl, rfl⟩ := hg
      exact h.moveToFront hk w

end Wf

/-- The keys after a set depend only on the keys before it. -/
theorem keys_set_congr {capacity : Nat} {k : κ} {l : List (κ × ν)} {l' : List (κ × μ)}
    (h : keys l = keys l') (v : ν) (v' : μ) :
    keys (set capacity k v l) = keys (set capacity k v' l') := by
  have hlen : l.length = l'.length := by rw [← length_keys l, ← length_keys l', h]
  unfold set
  rw [h, hlen]
  split
  · simp only [keys_cons, keys_without, h]
  · split
    · simp only [keys_cons, keys_dropLast, h]
    · simp only [keys_cons, h]

end ControlPlane.Lru
