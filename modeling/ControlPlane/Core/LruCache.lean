import ControlPlane.Lib.Lru
import ControlPlane.Lib.Simulation
import Mathlib.Data.List.AList

/-!
# LruCache

`LruCache<TKey, TVal>` (src/cc/core/common/lru_cache) keeps two structures
in step: `data_`, a hash map from each key to the iterator of its node in
`freshness_list_` and its value, and `freshness_list_`, the keys freshest
first. `InternalSet` evicts the key at the back when a new key arrives at
capacity, unlinks an existing key's node, and pushes a new node in front.
`Get` reads the value and sets it again to refresh it.

The cache refines the reference LRU of `ControlPlane.Lru`: read through
`toModel`, every call answers as the reference does, and the representation
invariant `Inv` holds throughout.

## Implementation notes

An iterator is the node it points at: nodes carry an id, handed out from
`nextNode`, and erasing through an iterator erases the node with that id.
`data_` is an `AList`; only its lookups and its size are observable. Every
method holds the mutex from start to end, so calls are atomic and the mutex
is left out.
-/

namespace ControlPlane.Core

open ControlPlane

/-- The cache's two structures; an iterator, `std::list<TKey>::iterator`,
is the id of the node it points at. -/
structure LruCache (K V : Type) [DecidableEq K] where
  data : AList (fun _ : K => Nat × V)
  freshnessList : List (Nat × K)
  nextNode : Nat

namespace LruCache

variable {K V : Type} [DecidableEq K]

/-- A new cache. -/
def empty : LruCache K V := ⟨∅, [], 0⟩

/-- The first block of `InternalSet`: a new key at capacity evicts the key
at the back of `freshness_list_`. -/
def evict (capacity : Nat) (key : K) (s : LruCache K V) : LruCache K V :=
  if key ∉ s.data ∧ s.data.keys.length = capacity then
    match s.freshnessList.getLast? with
    | some (_, evicted) => ⟨s.data.erase evicted, s.freshnessList.dropLast, s.nextNode⟩
    -- `--end()` of an empty list, reached only at capacity 0
    | none => s
  else s

/-- The second block: an existing key's node leaves `freshness_list_`
through the iterator `data_` holds for it. -/
def unlink (key : K) (s : LruCache K V) : LruCache K V :=
  match s.data.lookup key with
  | some (it, _) => ⟨s.data, s.freshnessList.eraseP fun n => n.1 == it, s.nextNode⟩
  | none => s

/-- The last block: a new node in front, and the key's entry pointing at
it. -/
def pushFront (key : K) (value : V) (s : LruCache K V) : LruCache K V :=
  ⟨s.data.insert key (s.nextNode, value), (s.nextNode, key) :: s.freshnessList, s.nextNode + 1⟩

def internalSet (capacity : Nat) (key : K) (value : V) (s : LruCache K V) : LruCache K V :=
  pushFront key value (unlink key (evict capacity key s))

/-- `Set`. -/
def set (capacity : Nat) (key : K) (value : V) (s : LruCache K V) : LruCache K V :=
  internalSet capacity key value s

/-- `Get`, for a key that `Contains` reports: the value, read back after
setting it again. On any other key `data_[key]` inserts a default entry
whose iterator points nowhere, and `InternalSet` erases through it. -/
def get (capacity : Nat) (key : K) (s : LruCache K V) : Option (V × LruCache K V) :=
  match s.data.lookup key with
  | some (_, value) =>
      let s' := internalSet capacity key value s
      (s'.data.lookup key).map fun e => (e.2, s')
  | none => none

/-- `Size`: `data_.size()`. -/
def size (s : LruCache K V) : Nat := s.data.keys.length

def contains (key : K) (s : LruCache K V) : Bool := decide (key ∈ s.data)

def clear (s : LruCache K V) : LruCache K V := ⟨∅, [], s.nextNode⟩

/-- `GetAll`: every key of `data_` with its value, inserted one by one into
a new map. -/
def getAll (s : LruCache K V) : AList (fun _ : K => V) :=
  s.data.entries.foldl (fun result kv => result.insert kv.1 kv.2.2) ∅

/-! ## The representation invariant and the abstraction -/

/-- The pairs a cache holds, freshest first: the keys of `freshness_list_`,
each with its value in `data_`. -/
def toModel (s : LruCache K V) : List (K × V) :=
  s.freshnessList.filterMap fun n => (s.data.lookup n.2).map fun e => (n.2, e.2)

/-- The representation invariant: `freshness_list_` holds the keys of
`data_`, each once; each stored iterator points at a node of its own key;
`data_` holds at most `capacity` keys. The nodes are distinct and older than
`nextNode`. -/
structure Inv (capacity : Nat) (s : LruCache K V) : Prop where
  keys_nodup : (s.freshnessList.map Prod.snd).Nodup
  mem_iff : ∀ k, k ∈ s.data ↔ k ∈ s.freshnessList.map Prod.snd
  iterator : ∀ {k it v}, s.data.lookup k = some (it, v) → (it, k) ∈ s.freshnessList
  nodes_nodup : (s.freshnessList.map Prod.fst).Nodup
  fresh : ∀ n ∈ s.freshnessList, n.1 < s.nextNode
  size_le : s.data.keys.length ≤ capacity

/-- What `InternalSet` has made of the cache before pushing `key`: the
invariant for every other key, `key` in no node, and room for one key more. -/
structure Ready (capacity : Nat) (key : K) (s : LruCache K V) : Prop where
  keys_nodup : (s.freshnessList.map Prod.snd).Nodup
  key_not_mem : key ∉ s.freshnessList.map Prod.snd
  mem_iff : ∀ k, k ≠ key → (k ∈ s.data ↔ k ∈ s.freshnessList.map Prod.snd)
  iterator : ∀ {k it v}, k ≠ key → s.data.lookup k = some (it, v) → (it, k) ∈ s.freshnessList
  nodes_nodup : (s.freshnessList.map Prod.fst).Nodup
  fresh : ∀ n ∈ s.freshnessList, n.1 < s.nextNode
  size_lt : (s.data.erase key).keys.length < capacity

/-! ## Pushing a node -/

section Push

variable {capacity : Nat} {key : K} {value : V} {s : LruCache K V}

theorem Inv.empty (capacity : Nat) : Inv capacity (empty : LruCache K V) where
  keys_nodup := List.nodup_nil
  mem_iff k := by simp [LruCache.empty, AList.notMem_empty]
  iterator h := by simp [LruCache.empty, AList.lookup_empty] at h
  nodes_nodup := List.nodup_nil
  fresh n hn := by simp [LruCache.empty] at hn
  size_le := by simp [LruCache.empty]

/-- Pushing `key` in front of a ready cache restores the invariant. -/
theorem Ready.pushFront (h : Ready capacity key s) : Inv capacity (pushFront key value s) where
  keys_nodup := List.nodup_cons.mpr ⟨h.key_not_mem, h.keys_nodup⟩
  mem_iff k := by
    by_cases hk : k = key
    · subst hk
      simp [LruCache.pushFront, AList.mem_insert]
    · simp [LruCache.pushFront, AList.mem_insert, hk, h.mem_iff k hk]
  iterator {k it v} hl := by
    by_cases hk : k = key
    · subst hk
      simp only [LruCache.pushFront, AList.lookup_insert, Option.some.injEq, Prod.mk.injEq] at hl
      rw [← hl.1]
      exact List.mem_cons_self
    · rw [LruCache.pushFront, AList.lookup_insert_ne hk] at hl
      exact List.mem_cons_of_mem _ (h.iterator hk hl)
  nodes_nodup := by
    refine List.nodup_cons.mpr ⟨fun hmem => ?_, h.nodes_nodup⟩
    obtain ⟨n, hn, hid⟩ := List.mem_map.mp hmem
    have hlt := h.fresh n hn
    simp only at hid
    omega
  fresh n hn := by
    rcases List.mem_cons.mp hn with rfl | hn
    · exact Nat.lt_succ_self _
    · exact Nat.lt_succ_of_lt (h.fresh n hn)
  size_le := by
    have := h.size_lt
    simp only [LruCache.pushFront, AList.keys_insert, List.length_cons, ← AList.keys_erase]
    omega

/-- The pairs of the nodes `fl`, read in `data`, are unchanged by a key in
no node. -/
theorem filterMap_lookup_congr {data data' : AList (fun _ : K => Nat × V)}
    {fl : List (Nat × K)} (h : ∀ n ∈ fl, data'.lookup n.2 = data.lookup n.2) :
    (fl.filterMap fun n => (data'.lookup n.2).map fun e => (n.2, e.2)) =
      fl.filterMap fun n => (data.lookup n.2).map fun e => (n.2, e.2) :=
  List.filterMap_congr fun n hn => by rw [h n hn]

theorem toModel_pushFront (hkey : key ∉ s.freshnessList.map Prod.snd) :
    toModel (pushFront key value s) = (key, value) :: toModel s := by
  have hframe : (s.freshnessList.filterMap fun n =>
        ((s.data.insert key (s.nextNode, value)).lookup n.2).map fun e => (n.2, e.2)) =
      toModel s :=
    filterMap_lookup_congr fun n hn =>
      AList.lookup_insert_ne fun he => hkey (he ▸ List.mem_map_of_mem hn)
  simp only [toModel, LruCache.pushFront, List.filterMap_cons, AList.lookup_insert,
    Option.map_some, hframe]

end Push

/-! ## Reading the cache through the reference model -/

section Model

variable {capacity : Nat} {s : LruCache K V}

theorem lookup_isSome_of_inv (h : Inv capacity s) {n : Nat × K} (hn : n ∈ s.freshnessList) :
    (s.data.lookup n.2).isSome := by
  rw [AList.lookup_isSome, h.mem_iff]
  exact List.mem_map_of_mem hn

/-- Every node has its key's value, so the model has one pair per node. -/
theorem keys_filterMap_lookup {data : AList (fun _ : K => Nat × V)} :
    ∀ {fl : List (Nat × K)}, (∀ n ∈ fl, (data.lookup n.2).isSome) →
      Lru.keys (fl.filterMap fun n => (data.lookup n.2).map fun e => (n.2, e.2)) =
        fl.map Prod.snd
  | [], _ => rfl
  | n :: fl, h => by
      obtain ⟨e, he⟩ := Option.isSome_iff_exists.mp (h n List.mem_cons_self)
      rw [List.filterMap_cons, he, Option.map_some, Lru.keys_cons,
        keys_filterMap_lookup fun m hm => h m (List.mem_cons_of_mem n hm), List.map_cons]

theorem keys_toModel (h : Inv capacity s) : Lru.keys (toModel s) = s.freshnessList.map Prod.snd :=
  keys_filterMap_lookup fun _ hn => lookup_isSome_of_inv h hn

/-- `freshness_list_` and `data_` have as many entries. -/
theorem Inv.length_freshnessList (h : Inv capacity s) :
    s.freshnessList.length = s.data.keys.length := by
  have hperm : s.data.keys.Perm (s.freshnessList.map Prod.snd) :=
    (List.perm_ext_iff_of_nodup s.data.keys_nodup h.keys_nodup).mpr fun k => h.mem_iff k
  rw [hperm.length_eq, List.length_map]

theorem length_toModel (h : Inv capacity s) : (toModel s).length = s.data.keys.length := by
  rw [← Lru.length_keys, keys_toModel h, List.length_map, h.length_freshnessList]

/-- A key is in the model exactly when `data_` holds it. -/
theorem mem_keys_toModel (h : Inv capacity s) (k : K) : k ∈ Lru.keys (toModel s) ↔ k ∈ s.data := by
  rw [keys_toModel h, h.mem_iff]

/-- The model's value of a key is its value in `data_`. -/
theorem lookup_filterMap_lookup {data : AList (fun _ : K => Nat × V)} (k : K)
    (fl : List (Nat × K)) :
    (fl.filterMap fun n => (data.lookup n.2).map fun e => (n.2, e.2)).lookup k =
      if k ∈ fl.map Prod.snd then (data.lookup k).map Prod.snd else none := by
  induction fl with
  | nil => rfl
  | cons n fl ih =>
      by_cases hk : n.2 = k
      · cases hl : data.lookup n.2 with
        | none =>
            rw [← hk] at ih ⊢
            simp only [List.filterMap_cons, hl, Option.map_none, ih, List.map_cons, List.mem_cons]
            split <;> simp
        | some e =>
            subst hk
            simp [hl]
      · have hk' : (k == n.2) = false := by simpa using Ne.symm hk
        have hmem : k ∈ (n :: fl).map Prod.snd ↔ k ∈ fl.map Prod.snd := by
          rw [List.map_cons, List.mem_cons, or_iff_right (Ne.symm hk)]
        simp only [hmem, ← ih, List.filterMap_cons]
        cases hl : data.lookup n.2 with
        | none => rfl
        | some e => simp [List.lookup_cons, hk']

theorem lookup_toModel (h : Inv capacity s) (k : K) :
    (toModel s).lookup k = (s.data.lookup k).map Prod.snd := by
  rw [toModel, lookup_filterMap_lookup]
  split
  · rfl
  · next hk =>
      have hnone : s.data.lookup k = none := by
        rw [← Option.not_isSome_iff_eq_none, AList.lookup_isSome, h.mem_iff]
        exact hk
      rw [hnone, Option.map_none]

end Model

/-! ## Evicting and unlinking -/

section Prepare

variable {capacity : Nat} {key : K} {s : LruCache K V}

/-- Erasing through the iterator of `key`'s node erases the one node of
`key`: node ids and keys are each distinct. -/
theorem eraseP_node_eq_filter {it : Nat} :
    ∀ {fl : List (Nat × K)}, (fl.map Prod.fst).Nodup → (fl.map Prod.snd).Nodup → (it, key) ∈ fl →
      fl.eraseP (fun n => n.1 == it) = fl.filter fun n => n.2 != key
  | [], _, _, hmem => absurd hmem List.not_mem_nil
  | n :: fl, hids, hkeys, hmem => by
      rw [List.map_cons, List.nodup_cons] at hids hkeys
      by_cases hn : n.1 = it
      · -- the head is the node of `it`, hence of `key`, and no other node has `key`
        have hnk : n = (it, key) := by
          rcases List.mem_cons.mp hmem with h | h
          · exact h.symm
          · have hit : it ∈ fl.map Prod.fst := List.mem_map.mpr ⟨_, h, rfl⟩
            exact (hids.1 (hn ▸ hit)).elim
        subst hnk
        have hrest : fl.filter (fun n => n.2 != key) = fl := by
          refine List.filter_eq_self.mpr fun m hm => ?_
          have hne : m.2 ≠ key := fun he =>
            hkeys.1 (he ▸ (List.mem_map.mpr ⟨m, hm, rfl⟩ : m.2 ∈ fl.map Prod.snd))
          simpa using hne
        simp [hrest]
      · have hmem' : (it, key) ∈ fl := by
          rcases List.mem_cons.mp hmem with h | h
          · exact absurd (by rw [← h]) hn
          · exact h
        have hnk : n.2 ≠ key := fun he =>
          hkeys.1 (he ▸ (List.mem_map.mpr ⟨_, hmem', rfl⟩ : key ∈ fl.map Prod.snd))
        rw [List.eraseP_cons_of_neg (by simpa using hn), List.filter_cons_of_pos (by simpa using hnk),
          eraseP_node_eq_filter hids.2 hkeys.2 hmem']

theorem evict_of_mem (hk : key ∈ s.data) : evict capacity key s = s :=
  if_neg fun h => h.1 hk

theorem evict_of_not_full (hfull : s.data.keys.length ≠ capacity) : evict capacity key s = s :=
  if_neg fun h => hfull h.2

theorem evict_of_full (hk : key ∉ s.data) (hfull : s.data.keys.length = capacity)
    (hne : s.freshnessList ≠ []) :
    evict capacity key s =
      ⟨s.data.erase (s.freshnessList.getLast hne).2, s.freshnessList.dropLast, s.nextNode⟩ := by
  rw [evict, if_pos ⟨hk, hfull⟩, List.getLast?_eq_some_getLast hne]

theorem unlink_of_lookup {it : Nat} {v : V} (hl : s.data.lookup key = some (it, v)) :
    unlink key s = ⟨s.data, s.freshnessList.eraseP (fun n => n.1 == it), s.nextNode⟩ := by
  rw [unlink, hl]

theorem unlink_of_not_mem (hk : key ∉ s.data) : unlink key s = s := by
  rw [unlink, AList.lookup_eq_none.mpr hk]

omit [DecidableEq K] in
/-- The keys of all nodes but the last are the keys other than the last
node's. -/
theorem mem_map_snd_dropLast {fl : List (Nat × K)} (hnd : (fl.map Prod.snd).Nodup)
    (hne : fl ≠ []) (k : K) :
    k ∈ fl.dropLast.map Prod.snd ↔ k ∈ fl.map Prod.snd ∧ k ≠ (fl.getLast hne).2 := by
  have hsplit := List.dropLast_append_getLast hne
  have hmem : k ∈ fl.map Prod.snd ↔ k ∈ fl.dropLast.map Prod.snd ∨ k = (fl.getLast hne).2 := by
    conv_lhs => rw [← hsplit]
    simp
  rw [← hsplit, List.map_append, List.nodup_append] at hnd
  rw [hmem]
  constructor
  · intro hk
    exact ⟨.inl hk, fun he => hnd.2.2 k hk k (by simp [he]) rfl⟩
  · rintro ⟨hk | hk, hne'⟩
    · exact hk
    · exact absurd hk hne'

/-- The pairs of the nodes without `key`'s are the model without `key`. -/
theorem filterMap_filter_ne (data : AList (fun _ : K => Nat × V)) (fl : List (Nat × K)) :
    ((fl.filter fun n => n.2 != key).filterMap fun n => (data.lookup n.2).map fun e => (n.2, e.2)) =
      Lru.without key (fl.filterMap fun n => (data.lookup n.2).map fun e => (n.2, e.2)) := by
  induction fl with
  | nil => rfl
  | cons n fl ih =>
      by_cases hk : n.2 = key
      · rw [List.filter_cons_of_neg (by simp [hk]), ih, List.filterMap_cons]
        cases hl : data.lookup n.2 with
        | none => rfl
        | some e => simp [Lru.without, hk]
      · rw [List.filter_cons_of_pos (by simp [hk]), List.filterMap_cons, List.filterMap_cons, ih]
        cases hl : data.lookup n.2 with
        | none => rfl
        | some e => simp [Lru.without, hk]

/-- An existing key: `InternalSet` unlinks its node and nothing else. -/
theorem Inv.ready_of_lookup (h : Inv capacity s) {it : Nat} {v : V}
    (hl : s.data.lookup key = some (it, v)) :
    Ready capacity key ⟨s.data, s.freshnessList.filter (fun n => n.2 != key), s.nextNode⟩ where
  keys_nodup := h.keys_nodup.sublist (List.filter_sublist.map _)
  key_not_mem := by simp
  mem_iff k hk := by
    rw [h.mem_iff]
    simp [hk]
  iterator {k it' v'} hk hl' := List.mem_filter.mpr ⟨h.iterator hl', by simpa using hk⟩
  nodes_nodup := h.nodes_nodup.sublist (List.filter_sublist.map _)
  fresh n hn := h.fresh n (List.mem_of_mem_filter hn)
  size_lt := by
    have hmem : key ∈ s.data.keys := AList.lookup_isSome.mp (by rw [hl]; rfl)
    have hpos : 0 < s.data.keys.length := List.length_pos_of_mem hmem
    have := h.size_le
    rw [AList.keys_erase, List.length_erase_of_mem hmem]
    omega

/-- A new key at capacity: `InternalSet` evicts the last node's key. -/
theorem Inv.ready_of_full (h : Inv capacity s) (hk : key ∉ s.data)
    (hfull : s.data.keys.length = capacity) (hne : s.freshnessList ≠ []) :
    Ready capacity key
      ⟨s.data.erase (s.freshnessList.getLast hne).2, s.freshnessList.dropLast, s.nextNode⟩ where
  keys_nodup := h.keys_nodup.sublist ((List.dropLast_sublist _).map _)
  key_not_mem hmem := hk ((h.mem_iff key).mpr
    ((mem_map_snd_dropLast h.keys_nodup hne key).mp hmem).1)
  mem_iff k _ := by
    rw [AList.mem_erase, h.mem_iff, mem_map_snd_dropLast h.keys_nodup hne, and_comm]
  iterator {k it v} _ hl := by
    have hne' : k ≠ (s.freshnessList.getLast hne).2 := fun he => by
      rw [he, AList.lookup_erase] at hl
      cases hl
    rw [AList.lookup_erase_ne hne'] at hl
    have hmem := h.iterator hl
    rw [← List.dropLast_append_getLast hne, List.mem_append, List.mem_singleton] at hmem
    exact hmem.resolve_right fun he => hne' (by rw [← he])
  nodes_nodup := h.nodes_nodup.sublist ((List.dropLast_sublist _).map _)
  fresh n hn := h.fresh n (List.dropLast_subset _ hn)
  size_lt := by
    have hlast : (s.freshnessList.getLast hne).2 ∈ s.data.keys :=
      (h.mem_iff _).mpr (List.mem_map_of_mem (List.getLast_mem hne))
    have hpos : 0 < s.data.keys.length := List.length_pos_of_mem hlast
    have hkey : key ∉ (s.data.erase (s.freshnessList.getLast hne).2).keys := fun hmem =>
      hk (AList.mem_erase.mp hmem).2
    rw [AList.keys_erase, List.erase_of_not_mem hkey, AList.keys_erase,
      List.length_erase_of_mem hlast]
    omega

/-- A new key below capacity: `InternalSet` changes nothing before the
push. -/
theorem Inv.ready_of_not_full (h : Inv capacity s) (hk : key ∉ s.data)
    (hfull : s.data.keys.length ≠ capacity) : Ready capacity key s where
  keys_nodup := h.keys_nodup
  key_not_mem hmem := hk ((h.mem_iff key).mpr hmem)
  mem_iff k _ := h.mem_iff k
  iterator _ hl := h.iterator hl
  nodes_nodup := h.nodes_nodup
  fresh := h.fresh
  size_lt := by
    have := h.size_le
    rw [AList.keys_erase, List.erase_of_not_mem hk]
    omega

theorem toModel_evict (h : Inv capacity s) (hne : s.freshnessList ≠ []) :
    toModel ⟨s.data.erase (s.freshnessList.getLast hne).2, s.freshnessList.dropLast, s.nextNode⟩ =
      (toModel s).dropLast := by
  obtain ⟨e, he⟩ := Option.isSome_iff_exists.mp (lookup_isSome_of_inv h (List.getLast_mem hne))
  have hsplit : toModel s =
      (s.freshnessList.dropLast.filterMap fun n => (s.data.lookup n.2).map fun e => (n.2, e.2)) ++
        [((s.freshnessList.getLast hne).2, e.2)] := by
    conv_lhs => rw [toModel, ← List.dropLast_append_getLast hne]
    rw [List.filterMap_append, List.filterMap_cons, List.filterMap_nil, he]
    rfl
  rw [hsplit, List.dropLast_concat, toModel]
  exact filterMap_lookup_congr fun n hn =>
    AList.lookup_erase_ne ((mem_map_snd_dropLast h.keys_nodup hne n.2).mp (List.mem_map_of_mem hn)).2

/-- What `InternalSet` makes of the cache before the push: a cache ready for
`key`, whose model is the reference's, less what its set takes away. -/
theorem Inv.prepare (hc : 0 < capacity) (h : Inv capacity s) (key : K) :
    Ready capacity key (unlink key (evict capacity key s)) ∧
      toModel (unlink key (evict capacity key s)) =
        if key ∈ Lru.keys (toModel s) then Lru.without key (toModel s)
        else if (toModel s).length = capacity then (toModel s).dropLast else toModel s := by
  simp only [mem_keys_toModel h, length_toModel h]
  by_cases hk : key ∈ s.data
  · obtain ⟨⟨it, v⟩, hl⟩ := Option.isSome_iff_exists.mp (AList.lookup_isSome.mpr hk)
    rw [evict_of_mem hk, unlink_of_lookup hl,
      eraseP_node_eq_filter h.nodes_nodup h.keys_nodup (h.iterator hl), if_pos hk]
    exact ⟨h.ready_of_lookup hl, filterMap_filter_ne _ _⟩
  · rw [if_neg hk]
    by_cases hfull : s.data.keys.length = capacity
    · -- `data_` is full, so `freshness_list_` has a last node to evict
      have hne : s.freshnessList ≠ [] := by
        intro hnil
        have hlen := h.length_freshnessList
        rw [hnil, List.length_nil] at hlen
        omega
      rw [evict_of_full hk hfull hne,
        unlink_of_not_mem fun hmem => hk (AList.mem_erase.mp hmem).2, if_pos hfull]
      exact ⟨h.ready_of_full hk hfull hne, toModel_evict h hne⟩
    · rw [evict_of_not_full hfull, unlink_of_not_mem hk, if_neg hfull]
      exact ⟨h.ready_of_not_full hk hfull, rfl⟩

end Prepare

/-! ## Each call against the reference -/

section Calls

variable {capacity : Nat} {s : LruCache K V}

/-- `Set` keeps the invariant, and sets the key in the model. -/
theorem Inv.set (hc : 0 < capacity) (h : Inv capacity s) (key : K) (value : V) :
    Inv capacity (s.set capacity key value) ∧
      toModel (s.set capacity key value) = Lru.set capacity key value (toModel s) := by
  have hp := h.prepare hc key
  refine ⟨hp.1.pushFront, ?_⟩
  rw [LruCache.set, internalSet, toModel_pushFront hp.1.key_not_mem, hp.2, Lru.set_eq_cons]

theorem lookup_internalSet (capacity : Nat) (key : K) (value : V) (s : LruCache K V) :
    (internalSet capacity key value s).data.lookup key =
      some ((unlink key (evict capacity key s)).nextNode, value) := by
  rw [internalSet, pushFront, AList.lookup_insert]

/-- `Get` of a key `data_` holds answers as the reference does and keeps the
invariant. -/
theorem Inv.get (hc : 0 < capacity) (h : Inv capacity s) {key : K} (hk : key ∈ s.data) :
    ∃ v s', s.get capacity key = some (v, s') ∧ Lru.get key (toModel s) = some (v, toModel s') ∧
      Inv capacity s' := by
  obtain ⟨⟨it, v⟩, hl⟩ := Option.isSome_iff_exists.mp (AList.lookup_isSome.mpr hk)
  have hset := h.set hc key v
  have hmodel : (toModel s).lookup key = some v := by
    rw [lookup_toModel h, hl]
    rfl
  refine ⟨v, s.set capacity key v, ?_, ?_, hset.1⟩
  · simp only [LruCache.get, hl, lookup_internalSet, Option.map_some, LruCache.set]
  · rw [Lru.get_eq_set capacity hmodel, hset.2]

theorem get_of_not_mem {key : K} (hk : key ∉ s.data) : s.get capacity key = none := by
  rw [LruCache.get, AList.lookup_eq_none.mpr hk]

theorem Inv.contains (h : Inv capacity s) (key : K) :
    s.contains key = decide (key ∈ Lru.keys (toModel s)) := by
  simp only [LruCache.contains, mem_keys_toModel h]

theorem Inv.size (h : Inv capacity s) : s.size = (toModel s).length :=
  (length_toModel h).symm

theorem inv_clear (capacity : Nat) (s : LruCache K V) :
    Inv capacity s.clear ∧ toModel s.clear = [] := by
  refine ⟨⟨List.nodup_nil, fun k => ?_, fun hl => ?_, List.nodup_nil, fun n hn => ?_, ?_⟩, rfl⟩
  · simp [LruCache.clear, AList.notMem_empty]
  · simp [LruCache.clear, AList.lookup_empty] at hl
  · simp [LruCache.clear] at hn
  · simp [LruCache.clear]

/-- The map `GetAll` builds: each key inserted with its value, the later
entries over the earlier. -/
theorem lookup_foldl_insert (k : K) :
    ∀ (es : List (Sigma fun _ : K => Nat × V)) (m : AList (fun _ : K => V)), es.NodupKeys →
      (es.foldl (fun result kv => result.insert kv.1 kv.2.2) m).lookup k =
        if k ∈ es.keys then (es.dlookup k).map Prod.snd else m.lookup k
  | [], _, _ => rfl
  | ⟨k', x⟩ :: es, m, hnd => by
      rw [List.nodupKeys_cons] at hnd
      rw [List.foldl_cons, lookup_foldl_insert k es _ hnd.2, List.keys_cons]
      by_cases hk : k = k'
      · subst hk
        simp [hnd.1, AList.lookup_insert, List.dlookup_cons_eq]
      · simp [hk, AList.lookup_insert_ne hk, List.dlookup_cons_ne es (⟨k', x⟩ : Sigma fun _ : K => Nat × V) hk]

/-- `GetAll` maps each key to its value in the model. -/
theorem Inv.getAll (h : Inv capacity s) (k : K) : s.getAll.lookup k = (toModel s).lookup k := by
  rw [LruCache.getAll, lookup_foldl_insert k _ _ s.data.nodupKeys, lookup_toModel h]
  split
  · rfl
  · next hk =>
      have hnone : s.data.lookup k = none := AList.lookup_eq_none.mpr hk
      rw [hnone, AList.lookup_empty, Option.map_none]

end Calls

end LruCache

/-! ## Sessions of calls -/

/-- The calls of `LruCache`. -/
inductive LruOp (K V : Type) where
  | set (key : K) (value : V)
  | get (key : K)
  | contains (key : K)
  | size
  | clear
  | getAll

/-- What a call answers; `GetAll`'s map is given by its lookups. -/
inductive LruAnswer (K V : Type) where
  | done
  | value (v : V)
  | bool (b : Bool)
  | count (n : Nat)
  | all (lookup : K → Option V)

namespace LruCache

variable {K V : Type} [DecidableEq K]

/-- One call on the cache, its answer appended to the answers so far. A
`Get` of a key the cache does not hold is outside the contract: `.error`. -/
def call (capacity : Nat) (st : LruCache K V × List (LruAnswer K V)) :
    LruOp K V → Except Unit (LruCache K V × List (LruAnswer K V))
  | .set key value => .ok (st.1.set capacity key value, st.2 ++ [.done])
  | .get key =>
      match st.1.get capacity key with
      | some (v, s') => .ok (s', st.2 ++ [.value v])
      | none => .error ()
  | .contains key => .ok (st.1, st.2 ++ [.bool (st.1.contains key)])
  | .size => .ok (st.1, st.2 ++ [.count st.1.size])
  | .clear => .ok (st.1.clear, st.2 ++ [.done])
  | .getAll => .ok (st.1, st.2 ++ [.all st.1.getAll.lookup])

/-- The same call on the reference LRU. -/
def referenceCall (capacity : Nat) (st : List (K × V) × List (LruAnswer K V)) :
    LruOp K V → Except Unit (List (K × V) × List (LruAnswer K V))
  | .set key value => .ok (Lru.set capacity key value st.1, st.2 ++ [.done])
  | .get key =>
      match Lru.get key st.1 with
      | some (v, l') => .ok (l', st.2 ++ [.value v])
      | none => .error ()
  | .contains key => .ok (st.1, st.2 ++ [.bool (decide (key ∈ Lru.keys st.1))])
  | .size => .ok (st.1, st.2 ++ [.count st.1.length])
  | .clear => .ok ([], st.2 ++ [.done])
  | .getAll => .ok (st.1, st.2 ++ [.all fun k => st.1.lookup k])

/-- The cache stands for the reference state: it keeps the invariant, reads
as the reference's pairs, and has given the same answers. -/
def Refines (capacity : Nat) (st : LruCache K V × List (LruAnswer K V))
    (rt : List (K × V) × List (LruAnswer K V)) : Prop :=
  Inv capacity st.1 ∧ toModel st.1 = rt.1 ∧ st.2 = rt.2

/-- Each call answers as the reference's does, from related states to
related states. -/
theorem call_simulates {capacity : Nat} (hc : 0 < capacity) :
    Simulation.Simulates (Refines capacity) (call (K := K) (V := V) capacity)
      (referenceCall capacity) := by
  rintro ⟨s, as⟩ ⟨l, bs⟩ op ⟨hinv, hmodel, hans⟩
  dsimp only at hmodel hans
  subst hmodel hans
  cases op with
  | set key value =>
      have hset := hinv.set hc key value
      exact .ok ⟨hset.1, hset.2, rfl⟩
  | get key =>
      by_cases hk : key ∈ s.data
      · obtain ⟨v, s', hg, hm, hinv'⟩ := hinv.get hc hk
        simp only [call, referenceCall, hg, hm]
        exact .ok ⟨hinv', rfl, rfl⟩
      · have hm : Lru.get key (toModel s) = none := by
          have hnone : (toModel s).lookup key = none := by
            rw [lookup_toModel hinv, AList.lookup_eq_none.mpr hk, Option.map_none]
          simp [Lru.get, hnone]
        simp only [call, referenceCall, get_of_not_mem hk, hm]
        exact .error ()
  | contains key => exact .ok ⟨hinv, rfl, by rw [hinv.contains]⟩
  | size => exact .ok ⟨hinv, rfl, by rw [hinv.size]⟩
  | clear => exact .ok ⟨(inv_clear capacity s).1, (inv_clear capacity s).2, rfl⟩
  | getAll =>
      refine .ok ⟨hinv, rfl, ?_⟩
      simp only [List.append_cancel_left_eq, List.cons.injEq, LruAnswer.all.injEq, and_true]
      exact funext hinv.getAll

/-- A cache of capacity at least one, driven by any session of calls from
empty, answers every call as the reference LRU does and fails on the same
call; at the end it keeps its representation invariant and reads as the
reference's pairs. -/
theorem lruCache_refines_reference {capacity : Nat} (hc : 0 < capacity) (ops : List (LruOp K V)) :
    Simulation.ExceptRel (Refines capacity)
      (Simulation.runAll (call capacity) (empty, []) ops)
      (Simulation.runAll (referenceCall capacity) ([], []) ops) :=
  Simulation.runAll_simulates (call_simulates hc) ops ⟨Inv.empty capacity, rfl, rfl⟩

/-- Two keys at capacity 2, the first read, a third set: the refinement on
this session. -/
theorem lruCache_refines_reference_session :
    0 < 2 ∧ Simulation.ExceptRel (Refines 2)
      (Simulation.runAll (call 2) (empty, [])
        ([.set 1 10, .set 2 20, .get 1, .set 3 30] : List (LruOp Nat Nat)))
      (Simulation.runAll (referenceCall 2) ([], []) [.set 1 10, .set 2 20, .get 1, .set 3 30]) :=
  ⟨by decide, lruCache_refines_reference (by decide) _⟩

/-- The read of key 1 saves it: key 2 is the one evicted. -/
example : ((Simulation.runAll (call 2) (empty, [])
    ([.set 1 10, .set 2 20, .get 1, .set 3 30] : List (LruOp Nat Nat))).toOption.map
      fun st => toModel st.1) = some [(3, 30), (1, 10)] := by
  decide

end LruCache

end ControlPlane.Core
