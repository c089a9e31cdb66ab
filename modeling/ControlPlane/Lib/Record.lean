import Mathlib.Data.List.AList

/-!
# Records kept as attribute maps

A document store keeps a record as a map from attribute names to values. A
write of several attributes inserts them one after another, so a later
attribute of a name overwrites an earlier one, and a name that the write does
not mention keeps its value. Values of types the store does not have travel
through a codec, whose decoding undoes the encoding exactly.

The fallible steps of such code run in `Except`; the two equations for its
bind are stated here once so that a chain of checks reduces by `simp`.
-/

namespace ControlPlane.Record

/-- An encoding of `α` into `β` that decoding undoes; decoding a value that
is no encoding may fail with an error of `ε`. -/
structure Codec (ε α β : Type*) where
  encode : α → β
  decode : β → Except ε α
  decode_encode : ∀ a, decode (encode a) = .ok a

attribute [simp] Codec.decode_encode

section Bind

universe u v

variable {ε : Type u} {α β : Type v}

@[simp] theorem ok_bind (a : α) (f : α → Except ε β) : (Except.ok a >>= f) = f a := rfl

@[simp] theorem error_bind (e : ε) (f : α → Except ε β) :
    (Except.error e >>= f) = Except.error e := rfl

/-- A chain of checks returns a value exactly when its first step does and
the rest returns that value. -/
theorem bind_eq_ok_iff {x : Except ε α} {f : α → Except ε β} {b : β} :
    (x >>= f) = .ok b ↔ ∃ a, x = .ok a ∧ f a = .ok b := by
  cases x <;> simp

/-- A chain of checks fails with `e` exactly when its first step does, or the
first step returns a value and the rest fails with `e`. -/
theorem bind_eq_error_iff {x : Except ε α} {f : α → Except ε β} {e : ε} :
    (x >>= f) = .error e ↔ x = .error e ∨ ∃ a, x = .ok a ∧ f a = .error e := by
  cases x <;> simp

end Bind

section ExceptTBind

universe u

variable {ε θ α β : Type u}

/-- In `ExceptT` over `Except`, `x >>= f` returns a value exactly when `x`
returns one and `f` of it returns that value. -/
theorem run_bind_eq_ok_ok {x : ExceptT ε (Except θ) α} {f : α → ExceptT ε (Except θ) β} {b : β} :
    (x >>= f).run = .ok (.ok b) ↔ ∃ a, x.run = .ok (.ok a) ∧ (f a).run = .ok (.ok b) := by
  rw [ExceptT.run_bind]
  -- the three ways `x` can end: thrown, returned early, or with a value
  rcases x.run with e | (r | a) <;> simp [bind, Except.bind, pure, Except.pure]

end ExceptTBind

section InsertAll

variable {α β : Type*} [DecidableEq α]

/-- Insert the pairs of `l` into `s`, from the first to the last. -/
def insertAll (l : List (α × β)) (s : AList (fun _ : α => β)) : AList (fun _ : α => β) :=
  l.foldl (fun s p => s.insert p.1 p.2) s

@[simp] theorem insertAll_nil (s : AList (fun _ : α => β)) : insertAll [] s = s := rfl

@[simp] theorem insertAll_cons (p : α × β) (l : List (α × β)) (s : AList (fun _ : α => β)) :
    insertAll (p :: l) s = insertAll l (s.insert p.1 p.2) := rfl

theorem mem_insertAll {a : α} {l : List (α × β)} {s : AList (fun _ : α => β)} :
    a ∈ insertAll l s ↔ a ∈ l.map Prod.fst ∨ a ∈ s := by
  induction l generalizing s with
  | nil => simp
  | cons p l ih =>
      rw [insertAll_cons, ih, AList.mem_insert, List.map_cons, List.mem_cons]
      tauto

/-- A name that the write does not mention keeps its value. -/
theorem lookup_insertAll_of_notMem {a : α} {l : List (α × β)} {s : AList (fun _ : α => β)}
    (h : a ∉ l.map Prod.fst) : (insertAll l s).lookup a = s.lookup a := by
  induction l generalizing s with
  | nil => rfl
  | cons p l ih =>
      have hne : a ≠ p.1 := fun hp => h (hp ▸ List.mem_cons_self)
      rw [insertAll_cons, ih (fun hl => h (List.mem_cons_of_mem _ hl)),
        AList.lookup_insert_ne hne]

/-- A write that mentions each name once leaves the value it writes. -/
theorem lookup_insertAll_of_mem {a : α} {b : β} {l : List (α × β)}
    {s : AList (fun _ : α => β)} (hnd : (l.map Prod.fst).Nodup) (h : (a, b) ∈ l) :
    (insertAll l s).lookup a = some b := by
  induction l generalizing s with
  | nil => cases h
  | cons p l ih =>
      rw [List.map_cons, List.nodup_cons] at hnd
      rw [insertAll_cons]
      rcases List.mem_cons.mp h with rfl | hl
      · rw [lookup_insertAll_of_notMem hnd.1, AList.lookup_insert]
      · exact ih hnd.2 hl

/-- What a write leaves at a name depends on the starting map only at that
name. -/
theorem lookup_insertAll_congr {a : α} {l : List (α × β)} {s t : AList (fun _ : α => β)}
    (h : s.lookup a = t.lookup a) : (insertAll l s).lookup a = (insertAll l t).lookup a := by
  induction l generalizing s t with
  | nil => exact h
  | cons p l ih =>
      apply ih
      by_cases hp : a = p.1
      · subst hp
        rw [AList.lookup_insert, AList.lookup_insert]
      · rw [AList.lookup_insert_ne hp, AList.lookup_insert_ne hp, h]

/-- Writing only the pairs whose names pass `q` leaves, at a name that passes,
what the whole write leaves, and elsewhere the starting map. -/
theorem lookup_insertAll_filter (q : α → Bool) (a : α) (l : List (α × β))
    (s : AList (fun _ : α => β)) :
    (insertAll (l.filter fun p => q p.1) s).lookup a =
      if q a then (insertAll l s).lookup a else s.lookup a := by
  induction l generalizing s with
  | nil => simp
  | cons p l ih =>
      rw [List.filter_cons, insertAll_cons]
      by_cases hp : q p.1
      · rw [if_pos hp, insertAll_cons, ih]
        by_cases ha : q a
        · rw [if_pos ha, if_pos ha]
        · have hne : a ≠ p.1 := fun h => ha (h ▸ hp)
          rw [if_neg ha, if_neg ha, AList.lookup_insert_ne hne]
      · rw [if_neg hp, ih]
        by_cases ha : q a
        · have hne : a ≠ p.1 := fun h => hp (h ▸ ha)
          rw [if_pos ha, if_pos ha]
          exact lookup_insertAll_congr (AList.lookup_insert_ne hne).symm
        · rw [if_neg ha, if_neg ha]

end InsertAll

section Union

variable {α β : Type*} [DecidableEq α]

/-- The union reads its left map first. -/
theorem lookup_union (s₁ s₂ : AList (fun _ : α => β)) (a : α) :
    (s₁ ∪ s₂).lookup a = (s₁.lookup a).or (s₂.lookup a) := by
  by_cases h : a ∈ s₁
  · obtain ⟨b, hb⟩ := Option.isSome_iff_exists.mp (AList.lookup_isSome.mpr h)
    rw [AList.lookup_union_left h, hb, Option.some_or]
  · rw [AList.lookup_union_right h, AList.lookup_eq_none.mpr h, Option.none_or]

end Union

end ControlPlane.Record
