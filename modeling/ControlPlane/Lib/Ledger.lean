import Mathlib.Data.List.AList

/-!
# Outstanding keys and the log of the keys taken out

A map holds what is outstanding. An entry leaves the map when it is taken out,
and its key is then written to a log. If every taking-out removes keys that are
present, and a key enters the map only when it is not in the log, then no key
reaches the log twice and no key of the log is outstanding again.

`TakesOut m m' ks` says what one operation did to the map; `Settled m log` is
the invariant that the log and the map keep together.
-/

namespace ControlPlane.Ledger

variable {α : Type*} {β : α → Type*}

/-- `m'` is `m` with the keys `ks` taken out: each of them was in `m`, none is
taken twice, and every other key of `m` stays. -/
structure TakesOut (m m' : AList β) (ks : List α) : Prop where
  nodup : ks.Nodup
  mem : ∀ k ∈ ks, k ∈ m
  mem_iff : ∀ k, k ∈ m' ↔ k ∈ m ∧ k ∉ ks

namespace TakesOut

theorem refl (m : AList β) : TakesOut m m [] :=
  ⟨List.nodup_nil, fun _ h => absurd h List.not_mem_nil, fun _ => by simp⟩

theorem trans {m m' m'' : AList β} {ks ks' : List α} (h : TakesOut m m' ks)
    (h' : TakesOut m' m'' ks') : TakesOut m m'' (ks ++ ks') where
  nodup := by
    refine List.nodup_append.mpr ⟨h.nodup, h'.nodup, ?_⟩
    intro a ha b hb hab
    -- a key taken out second was still in `m'`, so it was not taken out first
    exact ((h.mem_iff b).mp (h'.mem b hb)).2 (hab ▸ ha)
  mem := by
    intro k hk
    rcases List.mem_append.mp hk with hk | hk
    · exact h.mem k hk
    · exact ((h.mem_iff k).mp (h'.mem k hk)).1
  mem_iff := by
    intro k
    rw [h'.mem_iff, h.mem_iff, List.mem_append, not_or, and_assoc]

/-- A key of the map is still in it or was taken out. -/
theorem mem_or {m m' : AList β} {ks : List α} (h : TakesOut m m' ks) (k : α) :
    k ∈ m ↔ k ∈ m' ∨ k ∈ ks := by
  rw [h.mem_iff]
  constructor
  · intro hk
    by_cases hks : k ∈ ks
    · exact .inr hks
    · exact .inl ⟨hk, hks⟩
  · rintro (hk | hk)
    · exact hk.1
    · exact h.mem k hk

/-- Nothing is outstanding after all keys of the map are taken out. -/
theorem not_mem_of_keys {m m' : AList β} (h : TakesOut m m' m.keys) (k : α) : k ∉ m' := by
  rw [h.mem_iff, ← AList.mem_keys]
  exact fun hk => hk.2 hk.1

end TakesOut

/-- The log has no key twice, and no key of the log is outstanding. -/
structure Settled (m : AList β) (log : List α) : Prop where
  nodup : log.Nodup
  not_mem : ∀ k ∈ log, k ∉ m

namespace Settled

theorem empty : Settled (∅ : AList β) [] :=
  ⟨List.nodup_nil, fun _ h => absurd h List.not_mem_nil⟩

/-- The keys taken out join the log once each. -/
theorem takeOut {m m' : AList β} {log ks : List α} (h : Settled m log) (ht : TakesOut m m' ks) :
    Settled m' (log ++ ks) where
  nodup := by
    refine List.nodup_append.mpr ⟨h.nodup, ht.nodup, ?_⟩
    intro a ha b hb hab
    exact h.not_mem a ha (hab ▸ ht.mem b hb)
  not_mem := by
    intro k hk hk'
    rw [ht.mem_iff] at hk'
    rcases List.mem_append.mp hk with hk | hk
    · exact h.not_mem k hk hk'.1
    · exact hk'.2 hk

end Settled

/-! ## Erasing and inserting keys -/

variable [DecidableEq α]

theorem TakesOut.erase {m : AList β} {k : α} (h : k ∈ m) : TakesOut m (m.erase k) [k] where
  nodup := List.nodup_singleton k
  mem := fun k' hk' => List.mem_singleton.mp hk' ▸ h
  mem_iff := fun k' => by
    rw [AList.mem_erase, List.mem_singleton, and_comm]

/-- Erasing the keys `ks` one after the other takes them out. -/
theorem takesOut_foldl_erase (ks : List α) (hnd : ks.Nodup) :
    ∀ (m : AList β), (∀ k ∈ ks, k ∈ m) → TakesOut m (ks.foldl (fun m k => m.erase k) m) ks := by
  induction ks with
  | nil => exact fun m _ => TakesOut.refl m
  | cons k ks ih =>
    intro m hmem
    obtain ⟨hk, hnd⟩ := List.nodup_cons.mp hnd
    have hrest : ∀ k' ∈ ks, k' ∈ m.erase k := by
      intro k' hk'
      exact AList.mem_erase.mpr ⟨fun he => hk (he ▸ hk'), hmem k' (List.mem_cons_of_mem k hk')⟩
    exact (TakesOut.erase (hmem k List.mem_cons_self)).trans (ih hnd _ hrest)

/-- A key that is not in the log may enter the map. -/
theorem Settled.insert {m : AList β} {log : List α} (h : Settled m log) {k : α} (hk : k ∉ log)
    (v : β k) : Settled (m.insert k v) log where
  nodup := h.nodup
  not_mem := by
    intro k' hk' hmem
    rcases (AList.mem_insert _).mp hmem with rfl | hmem
    · exact hk hk'
    · exact h.not_mem k' hk' hmem

end ControlPlane.Ledger
