import ControlPlane.Proxy.BufferLayout

/-!
# Drain under the layout

`Drain k` takes `k` bytes from the head: each full block it empties has no
space left and is pruned, and the block where it stops loses the front of its
data. So the cells lose their first `k`, the data cells with them, while the
space behind the data stays where it is (`Layout.drain_spec`). Once the data
is gone `end_` returns to the head, and with no reserve outstanding the head's
offset goes back to zero, which gives the head its whole block again.

Under the layout and `k ≤ data_size` the loop always ends: it never meets a
head with bytes still to drain after keeping it, nor runs out of blocks.
-/

namespace ControlPlane.Proxy

section Drain

variable {capacity : Nat}

theorem Block.drain_eq (b : Block) (r : Nat) :
    b.drain r = ({ b with offset := b.offset + min b.len r, len := b.len - min b.len r },
      r - min b.len r) := by
  have hmin : (if b.dataLen < r then b.dataLen else r) = min b.len r := by
    unfold Block.dataLen
    by_cases h : b.len < r
    · rw [if_pos h]; omega
    · rw [if_neg h]; omega
  simp only [Block.drain, hmin]

/-- Draining the front of a block drops the front of its cells. -/
theorem Block.cells_advance (b : Block) (t len : Nat) :
    Block.cells capacity { b with offset := b.offset + t, len := len } = (b.cells capacity).drop t := by
  simp only [Block.cells, ← List.map_drop, List.drop_range', Nat.mul_one, Nat.sub_sub]

theorem BlocksFit.of_cons {b : Block} {rest : List Block} (h : BlocksFit capacity (b :: rest)) :
    BlocksFit capacity rest where
  offset_lt c hc := h.offset_lt c (List.mem_cons_of_mem b hc)
  bounded c hc := h.bounded c (List.mem_cons_of_mem b hc)
  offset_tail c hc := h.offset_tail c (List.mem_of_mem_tail hc)

/-- A new head with its offset inside the block and its data behind it keeps
the blocks fitting. -/
theorem BlocksFit.cons_head {b b' : Block} {rest : List Block} (h : BlocksFit capacity (b :: rest))
    (hlt : b'.offset < capacity) (hle : b'.offset + b'.len ≤ capacity) :
    BlocksFit capacity (b' :: rest) where
  offset_lt c hc := by
    rcases List.mem_cons.mp hc with rfl | hc
    · exact hlt
    · exact h.offset_lt c (List.mem_cons_of_mem b hc)
  bounded c hc := by
    rcases List.mem_cons.mp hc with rfl | hc
    · exact hle
    · exact h.bounded c (List.mem_cons_of_mem b hc)
  offset_tail c hc := h.offset_tail c hc

namespace BasicBuffer

/-- A round of `Drain` on a full head with no more data than is asked for:
the head is emptied, has no space, and is pruned. -/
theorem drainBlocks_prune {b : Block} {rest : List Block} {r : Nat} (hr : 0 < r)
    (hb : b.len ≤ r) (hfull : b.offset + b.len = capacity) :
    drainBlocks capacity (b :: rest) r =
      (drainBlocks capacity rest (r - b.len)).map fun x => (x.1, x.2 + 1) := by
  obtain ⟨r, rfl⟩ : ∃ r', r = r' + 1 := ⟨r - 1, by omega⟩
  have hmin : min b.len (r + 1) = b.len := Nat.min_eq_left hb
  have hprune : (b.drain (r + 1)).1.dataLen = 0 ∧ (b.drain (r + 1)).1.spaceLen capacity = 0 := by
    simp only [Block.drain_eq, hmin, Block.dataLen, Block.spaceLen]
    omega
  simp only [drainBlocks]
  rw [if_pos hprune]
  simp only [Block.drain_eq, hmin]

/-- A round of `Drain` that stops inside the head: the head keeps what is
left of its data, or its space. -/
theorem drainBlocks_keep {b : Block} {rest : List Block} {r : Nat} (hr : 0 < r)
    (hle : r ≤ b.len) (hkeep : ¬(b.len = r ∧ b.offset + b.len = capacity))
    (hb : b.offset + b.len ≤ capacity) :
    drainBlocks capacity (b :: rest) r =
      some ({ b with offset := b.offset + r, len := b.len - r } :: rest, 0) := by
  obtain ⟨r, rfl⟩ : ∃ r', r = r' + 1 := ⟨r - 1, by omega⟩
  have hmin : min b.len (r + 1) = r + 1 := Nat.min_eq_right hle
  have hprune : ¬((b.drain (r + 1)).1.dataLen = 0 ∧ (b.drain (r + 1)).1.spaceLen capacity = 0) := by
    simp only [Block.drain_eq, hmin, Block.dataLen, Block.spaceLen]
    omega
  have hdone : (b.drain (r + 1)).2 = 0 := by simp [Block.drain_eq, hmin]
  simp only [drainBlocks]
  rw [if_neg hprune, if_pos hdone]
  simp only [Block.drain_eq, hmin]

end BasicBuffer

variable (capacity)

/-- What `Drain`'s loop leaves of `blocks` after `k` bytes, when `end_` is `e`
with the blocks `post` behind it: the cells without their first `k`, blocks
that fit, a suffix of the addresses, `k` bytes less, and `end_` still there
or pruned with everything before it. -/
structure Drained (blocks : List Block) (k : Nat) (e : Block) (post blocks' : List Block) :
    Prop where
  cells_eq : blocks'.flatMap (Block.cells capacity) = (blocks.flatMap (Block.cells capacity)).drop k
  fit : BlocksFit capacity blocks'
  ids_suffix : blocks'.map (·.id) <:+ blocks.map (·.id)
  sum_len : (blocks'.map (·.len)).sum + k = (blocks.map (·.len)).sum
  shape : (∃ pre' e', blocks' = pre' ++ e' :: post ∧ e'.id = e.id ∧
      ∀ b ∈ pre', b.offset + b.len = capacity) ∨ blocks' = post

variable {capacity}

/-- Nothing drained: the blocks stay. -/
theorem Drained.refl {pre post : List Block} {e : Block}
    (hfit : BlocksFit capacity (pre ++ e :: post)) (hpre : ∀ b ∈ pre, b.offset + b.len = capacity) :
    Drained capacity (pre ++ e :: post) 0 e post (pre ++ e :: post) :=
  ⟨by simp, hfit, List.suffix_refl _, by simp, .inl ⟨pre, e, rfl, rfl, hpre⟩⟩

/-- `end_` pruned: it was full and all its data is drained, the blocks
without data behind it remain. -/
theorem Drained.pruneEnd {post : List Block} {e : Block} (hfit : BlocksFit capacity (e :: post))
    (hfull : e.offset + e.len = capacity) :
    Drained capacity (e :: post) e.len e post post := by
  have hcells : (e.cells capacity).length = e.len := by simp; omega
  refine ⟨?_, hfit.of_cons, (List.suffix_cons _ _), by simp; omega, .inr rfl⟩
  rw [List.flatMap_cons, List.drop_append, List.drop_eq_nil_of_le (by omega), hcells,
    Nat.sub_self, List.drop_zero, List.nil_append]

/-- The loop stops inside the head, which keeps the rest of its data or its
space. -/
theorem Drained.keepHead {b e : Block} {rest post : List Block} {r : Nat}
    (hfit : BlocksFit capacity (b :: rest)) (hle : r ≤ b.len)
    (hkeep : ¬(b.len = r ∧ b.offset + b.len = capacity))
    (hshape : (∃ pre', b :: rest = pre' ++ e :: post ∧ ∀ c ∈ pre', c.offset + c.len = capacity) ∨
      (b = e ∧ rest = post)) :
    Drained capacity (b :: rest) r e post
      ({ b with offset := b.offset + r, len := b.len - r } :: rest) := by
  have hb : b.offset + b.len ≤ capacity := hfit.bounded b (by simp)
  refine ⟨?_, hfit.cons_head (by simp; omega) (by simp; omega), by simp, ?_, ?_⟩
  · rw [List.flatMap_cons, List.flatMap_cons, Block.cells_advance,
      List.drop_append_of_le_length (by simp; omega)]
  · simp only [List.map_cons, List.sum_cons]
    omega
  · left
    rcases hshape with ⟨pre', hsplit, hpre'⟩ | ⟨rfl, rfl⟩
    · cases pre' with
      | nil =>
          obtain ⟨rfl, rfl⟩ := List.cons.inj hsplit
          exact ⟨[], _, rfl, rfl, by simp⟩
      | cons c pre' =>
          obtain ⟨rfl, hrest⟩ := List.cons.inj hsplit
          refine ⟨{ b with offset := b.offset + r, len := b.len - r } :: pre', e,
            by simp [hrest], rfl, ?_⟩
          have hfull : b.offset + b.len = capacity := hpre' b (by simp)
          intro c hc
          rcases List.mem_cons.mp hc with rfl | hc
          · simp only
            omega
          · exact hpre' c (List.mem_cons_of_mem _ hc)
    · exact ⟨[], _, rfl, rfl, by simp⟩

/-- A full head pruned before the rest is drained. -/
theorem Drained.pruneHead {b e : Block} {rest post blocks' : List Block} {r : Nat}
    (hfull : b.offset + b.len = capacity) (hb : b.len ≤ r)
    (h : Drained capacity rest (r - b.len) e post blocks') :
    Drained capacity (b :: rest) r e post blocks' := by
  have hcells : (b.cells capacity).length = b.len := by simp; omega
  refine ⟨?_, h.fit, h.ids_suffix.trans (List.suffix_cons _ _), ?_, h.shape⟩
  · have hnil : (b.cells capacity).drop r = [] := List.drop_eq_nil_of_le (by omega)
    rw [h.cells_eq, List.flatMap_cons, List.drop_append, hnil, hcells, List.nil_append]
  · have := h.sum_len
    simp only [List.map_cons, List.sum_cons]
    omega

/-- `Drain`'s loop under the layout: for `k` up to the data it ends, with
the pruned blocks counted. -/
theorem drainBlocks_spec {e : Block} {post : List Block} (hpost : ∀ b ∈ post, b.len = 0) :
    ∀ (pre : List Block) (k : Nat), BlocksFit capacity (pre ++ e :: post) →
      (∀ b ∈ pre, b.offset + b.len = capacity) → k ≤ (pre.map (·.len)).sum + e.len →
      ∃ blocks' pruned, BasicBuffer.drainBlocks capacity (pre ++ e :: post) k = some (blocks', pruned) ∧
        blocks'.length + pruned = (pre ++ e :: post).length ∧
        Drained capacity (pre ++ e :: post) k e post blocks'
  | pre, 0, hfit, hpre, _ => ⟨_, 0, by simp [BasicBuffer.drainBlocks], rfl, Drained.refl hfit hpre⟩
  | [], k + 1, hfit, _, hk => by
      have hb : e.offset + e.len ≤ capacity := hfit.bounded e (by simp)
      by_cases hprune : e.len = k + 1 ∧ e.offset + e.len = capacity
      · -- `end_` full and emptied: pruned, what is behind it remains
        obtain ⟨hlen, hfull⟩ := hprune
        refine ⟨post, 1, ?_, by simp, ?_⟩
        · rw [List.nil_append, BasicBuffer.drainBlocks_prune (by omega) (by omega) hfull,
            show k + 1 - e.len = 0 by omega]
          simp [BasicBuffer.drainBlocks]
        · rw [← hlen]
          exact Drained.pruneEnd hfit hfull
      · simp only [List.map_nil, List.sum_nil, Nat.zero_add] at hk
        exact ⟨_, 0, BasicBuffer.drainBlocks_keep (by omega) hk hprune hb, by simp,
          Drained.keepHead hfit hk hprune (.inr ⟨rfl, rfl⟩)⟩
  | b :: pre, k + 1, hfit, hpre, hk => by
      have hfull : b.offset + b.len = capacity := hpre b (by simp)
      simp only [List.map_cons, List.sum_cons] at hk
      by_cases hb : b.len ≤ k + 1
      · -- a full block emptied: pruned, and the loop goes on
        obtain ⟨blocks', pruned, hrun, hlen, hdrained⟩ := drainBlocks_spec hpost pre (k + 1 - b.len)
          (BlocksFit.of_cons (b := b) hfit) (fun c hc => hpre c (List.mem_cons_of_mem b hc))
          (by omega)
        refine ⟨blocks', pruned + 1, ?_, by simp at hlen ⊢; omega, hdrained.pruneHead hfull hb⟩
        rw [List.cons_append, BasicBuffer.drainBlocks_prune (by omega) hb hfull, hrun]
        rfl
      · have hkeep : ¬(b.len = k + 1 ∧ b.offset + b.len = capacity) := by omega
        refine ⟨_, 0, BasicBuffer.drainBlocks_keep (by omega) (by omega) hkeep (by omega), by simp,
          Drained.keepHead hfit (by omega) hkeep (.inl ⟨b :: pre, by simp, hpre⟩)⟩

theorem len_eq_zero_of_sum_len {blocks : List Block} (h : (blocks.map (·.len)).sum = 0) :
    ∀ b ∈ blocks, b.len = 0 := by
  induction blocks with
  | nil => simp
  | cons c blocks ih =>
      simp only [List.map_cons, List.sum_cons] at h
      intro b hb
      rcases List.mem_cons.mp hb with rfl | hb
      · omega
      · exact ih (by omega) b hb

/-- Without data, `end_` at the head is where the layout wants it. -/
theorem EndSplit.of_len_eq_zero {blocks : List Block} (h : ∀ b ∈ blocks, b.len = 0) :
    EndSplit capacity blocks (blocks.head?.map (·.id)) := by
  cases blocks with
  | nil => exact .inl ⟨rfl, rfl⟩
  | cons b rest => exact .inr ⟨[], b, rest, rfl, rfl, by simp, fun c hc => h c (by simp [hc])⟩

/-- While data remains after the loop, `end_` was not pruned. -/
theorem Drained.endSplit {blocks blocks' post : List Block} {k : Nat} {e : Block}
    (h : Drained capacity blocks k e post blocks') (hpost : ∀ b ∈ post, b.len = 0)
    (hdata : 0 < (blocks'.map (·.len)).sum) : EndSplit capacity blocks' (some e.id) := by
  rcases h.shape with ⟨pre', e', rfl, he', hpre'⟩ | rfl
  · exact .inr ⟨pre', e', post, rfl, by rw [he'], hpre', hpost⟩
  · rw [sum_len_eq_zero hpost] at hdata
    omega

/-- A buffer whose blocks fit, with addresses from the old list, `end_` in
place and counters that count, has the layout. -/
theorem Layout.of_ids_suffix {bb bb' : BasicBuffer} (hl : Layout capacity bb)
    (hfit : BlocksFit capacity bb'.blocks) (hids : bb'.blocks.map (·.id) <:+ bb.blocks.map (·.id))
    (hnext : bb'.nextId = bb.nextId) (hsplit : EndSplit capacity bb'.blocks bb'.endId)
    (hcnt : bb'.blockCnt = bb'.blocks.length) (hsize : bb'.dataSize = (bb'.blocks.map (·.len)).sum) :
    Layout capacity bb' where
  toBlocksFit := hfit
  ids_nodup := hl.ids_nodup.sublist hids.sublist
  ids_lt b hb := by
    obtain ⟨b', hb', hid⟩ := List.mem_map.mp (hids.subset (List.mem_map_of_mem (f := Block.id) hb))
    rw [hnext, ← hid]
    exact hl.ids_lt b' hb'
  split := hsplit
  blockCnt_eq := hcnt
  dataSize_eq := hsize

/-- `Drain`'s loop from the buffer's blocks: for `k` up to the data it ends,
dropping the first `k` cells; while data remains, `end_` is still in
place. -/
theorem Layout.drain_loop {bb : BasicBuffer} (hl : Layout capacity bb) {k : Nat}
    (hk : k ≤ bb.dataSize) :
    ∃ blocks' pruned, BasicBuffer.drainBlocks capacity bb.blocks k = some (blocks', pruned) ∧
      blocks'.length + pruned = bb.blocks.length ∧
      blocks'.flatMap (Block.cells capacity) = (bb.cells capacity).drop k ∧
      BlocksFit capacity blocks' ∧ blocks'.map (·.id) <:+ bb.blocks.map (·.id) ∧
      (blocks'.map (·.len)).sum + k = bb.dataSize ∧
      (0 < (blocks'.map (·.len)).sum → EndSplit capacity blocks' bb.endId) := by
  rcases hl.split with ⟨hnil, hend⟩ | ⟨pre, e, post, hblocks, hend, hpre, hpost⟩
  · have hk0 : k = 0 := by rw [hl.dataSize_eq, hnil] at hk; simpa using hk
    subst hk0
    refine ⟨[], 0, by simp [BasicBuffer.drainBlocks, hnil], by simp [hnil], by simp [BasicBuffer.cells, hnil],
      ⟨by simp, by simp, by simp⟩, by simp [hnil], by simp [hl.dataSize_eq, hnil], by simp⟩
  · have hfit : BlocksFit capacity (pre ++ e :: post) := hblocks ▸ hl.toBlocksFit
    have hk' : k ≤ (pre.map (·.len)).sum + e.len := by
      rw [hl.dataSize_eq, hblocks] at hk
      simpa [sum_len_eq_zero hpost] using hk
    obtain ⟨blocks', pruned, hrun, hlen, hd⟩ := drainBlocks_spec hpost pre k hfit hpre hk'
    refine ⟨blocks', pruned, hblocks ▸ hrun, hblocks ▸ hlen,
      by rw [hd.cells_eq, BasicBuffer.cells, hblocks], hd.fit, hblocks ▸ hd.ids_suffix,
      by rw [hd.sum_len, hl.dataSize_eq, hblocks], fun hdata => hend ▸ hd.endSplit hpost hdata⟩

/-- `Drain k` for `k` up to the data, after `Peek`: the loop ends, the layout
stays, the data loses its first `k` cells, and the space behind it stays
where it is while a reserve is outstanding. -/
theorem Layout.drain_spec {bb : BasicBuffer} (hl : Layout capacity bb) {k : Nat}
    (hk : k ≤ bb.dataSize) :
    ∃ bb', bb.drain capacity k = some bb' ∧ Layout capacity bb' ∧
      bb'.dataSize = bb.dataSize - k ∧ bb'.reserved = bb.reserved ∧ bb'.peeked = false ∧
      bb'.dataCells capacity = (bb.dataCells capacity).drop k ∧
      (bb.reserved = true → bb'.spaceCells capacity = bb.spaceCells capacity) := by
  obtain ⟨blocks', pruned, hrun, hlen, hcells, hfit, hids, hsum, hsplit⟩ := hl.drain_loop hk
  have hcnt : bb.blockCnt - pruned = blocks'.length := by rw [hl.blockCnt_eq]; omega
  -- before the reset the cells are the old ones without their first `k`
  have hdata : (blocks'.flatMap (Block.cells capacity)).take (bb.dataSize - k) =
      (bb.dataCells capacity).drop k := by
    rw [hcells, BasicBuffer.dataCells, List.drop_take]
  have hspace : (blocks'.flatMap (Block.cells capacity)).drop (bb.dataSize - k) =
      bb.spaceCells capacity := by
    rw [hcells, BasicBuffer.spaceCells, List.drop_drop]
    congr 1
    omega
  simp only [BasicBuffer.drain, hrun, Option.map_some]
  refine ⟨_, rfl, ?_⟩
  by_cases hd : bb.dataSize - k = 0
  · -- the data is gone: `end_` returns to the head, and no data cell is left
    have hzero := len_eq_zero_of_sum_len (show (blocks'.map (·.len)).sum = 0 by omega)
    have hend := @EndSplit.of_len_eq_zero capacity _ hzero
    have hgone : (bb.dataCells capacity).drop k = [] :=
      List.drop_eq_nil_of_le (by rw [hl.length_dataCells]; omega)
    simp only [hd, if_true, decide_true, Bool.true_and]
    cases hres : bb.reserved
    · -- no reserve outstanding: the head's offset goes back to zero
      simp only [Bool.not_false, if_true]
      cases blocks' with
      | nil =>
          refine ⟨hl.of_ids_suffix hfit hids rfl hend hcnt (by simp), rfl, rfl, rfl, ?_, by simp⟩
          rw [hgone]
          simp [BasicBuffer.dataCells]
      | cons h t =>
          have hpos : 0 < capacity := Nat.lt_of_le_of_lt (Nat.zero_le _) (hfit.offset_lt h (by simp))
          have hh : h.len = 0 := hzero h (by simp)
          refine ⟨hl.of_ids_suffix (hfit.cons_head (by simpa using hpos) (by simp [hh]))
            (by simpa using hids) rfl
            (.inr ⟨[], _, t, rfl, rfl, by simp, fun c hc => hzero c (by simp [hc])⟩)
            (by simpa using hcnt) ?_, ?_, ?_, ?_, ?_, ?_⟩
          · simpa [hh] using (sum_len_eq_zero hzero).symm
          · trivial
          · trivial
          · trivial
          · rw [hgone]
            simp [BasicBuffer.dataCells]
          · simp
    · -- a reserve outstanding: the space behind the data stays where it is
      simp only [Bool.not_true, Bool.false_eq_true, if_false]
      refine ⟨hl.of_ids_suffix hfit hids rfl hend hcnt (sum_len_eq_zero hzero).symm,
        trivial, trivial, trivial, ?_, fun _ => ?_⟩
      · rw [hgone]
        simp [BasicBuffer.dataCells]
      · rw [← hspace, hd]
        rfl
  · -- data remains: no reset, `end_` stays
    simp only [hd, if_false, decide_false, Bool.false_and, Bool.false_eq_true]
    exact ⟨hl.of_ids_suffix hfit hids rfl (hsplit (by omega)) hcnt (by simp; omega), trivial,
      trivial, trivial, hdata, fun _ => hspace⟩

end Drain

end ControlPlane.Proxy
