import ControlPlane.Proxy.BufferLayout

/-!
# The SpaceStepper's walks: Reserve and Commit

`Reserve`, `ReserveAtLeast` and `Commit` each start a `SpaceStepper` at
`end_` (after it when it is full) and walk towards the tail, appending blocks
once past it. Walked from there, the space cells are the buffer's space
(`Layout.spaceCellsFrom_stepperStart`), so:

* `Reserve n` appends blocks only when the space is short of `n`
  (`Layout.reserve_blocks_eq_iff`), keeps the data cells, and hands out
  regions covering the first `n` cells of the space;
* `ReserveAtLeast` hands out whole spaces of blocks, a prefix of the space
  that reaches the size asked for;
* `Commit k` within the space appends nothing and changes only `len`: the
  cells stay, and `k` cells pass from the space to the data.

The loops run on `reserveFuel`; the specifications show it is always enough.
-/

namespace ControlPlane.Proxy

section Stepper

variable {capacity : Nat}

/-- A region `Reserve` cuts from a block's space covers the first cells of
that space. -/
theorem Block.spaceRegion_cells (b : Block) {t : Nat} (ht : t ≤ b.spaceLen capacity) :
    (⟨b.id, b.spaceHead, t⟩ : Region).cells = (b.spaceCells capacity).take t := by
  simp only [Block.spaceLen] at ht
  simp only [Region.cells, Block.spaceCells, Block.cells, Block.spaceHead, ← List.map_drop,
    List.drop_range', Nat.mul_one, ← List.map_take]
  rw [List.take_range'_of_length_ge (by omega)]

namespace BasicBuffer

/-- A stepper at a block of the list sees that block's space, then the rest;
blocks appended behind do not change the block it stands on. -/
theorem spaceCellsFrom_of_prefix (capacity : Nat) {bb bb' : BasicBuffer}
    (h : bb.blocks <+: bb'.blocks) {i : Nat}
    (hi : i < bb.blocks.length) :
    bb'.spaceCellsFrom capacity i =
      (bb.blockAt i).spaceCells capacity ++ bb'.spaceCellsFrom capacity (i + 1) := by
  have hi' : i < bb'.blocks.length := Nat.lt_of_lt_of_le hi h.length_le
  rw [spaceCellsFrom, List.drop_eq_getElem_cons hi', List.flatMap_cons, blockAt,
    List.getD_eq_getElem?_getD, List.getElem?_eq_getElem hi, Option.getD_some,
    h.getElem hi]
  rfl

/-- `SpaceStepper::Next` stands on a block of the list, or appends a fresh
one when it is past the tail. -/
theorem stepperNext_spec (capacity : Nat) (bb : BasicBuffer) {i : Nat} (hi : i ≤ bb.blocks.length) :
    ∃ k ≤ 1, bb.stepperNext i = appendNewBlock^[k] bb ∧ i < (bb.stepperNext i).blocks.length ∧
      (k = 1 → i = bb.blocks.length ∧
        ((bb.stepperNext i).blockAt i).spaceLen capacity = capacity) := by
  unfold stepperNext
  split
  · exact ⟨0, by omega, rfl, by assumption, by omega⟩
  · have hieq : i = bb.blocks.length := by omega
    refine ⟨1, Nat.le_refl 1, rfl, by simp; omega, fun _ => ⟨hieq, ?_⟩⟩
    simp [blockAt, hieq, Block.spaceLen]

/-- One round of `Reserve`'s loop: the stepper's block gives its whole space,
or what is still missing. -/
theorem reserveLoop_succ (fuel : Nat) (bb : BasicBuffer) (i : Nat) {n : Nat} (hn : n ≠ 0) :
    reserveLoop capacity (fuel + 1) bb i n =
      let block := (bb.stepperNext i).blockAt i
      let t := min n (block.spaceLen capacity)
      let rest := reserveLoop capacity fuel (bb.stepperNext i) (i + 1) (n - t)
      (rest.1, ⟨block.id, block.spaceHead, t⟩ :: rest.2) := by
  have hmin : ∀ s, (if n ≥ s then s else n) = min n s := fun s => by split <;> omega
  simp only [reserveLoop, if_neg hn, hmin]

theorem lt_length_of_spaceCellsFrom {bb : BasicBuffer} {i : Nat}
    (h : 0 < (bb.spaceCellsFrom capacity i).length) : i < bb.blocks.length := by
  by_contra hge
  simp [spaceCellsFrom, List.drop_eq_nil_of_le (Nat.le_of_not_lt hge)] at h

/-- `Reserve`'s loop, given the fuel `reserveFuel` gives it, stops with
`remaining` covered: it appends some blocks, and its regions cover the first
`n` space cells from the stepper on. Within the space already there, it
appends nothing. -/
theorem reserveLoop_spec (hcap : 0 < capacity) :
    ∀ (fuel : Nat) (bb : BasicBuffer) (i n : Nat), i ≤ bb.blocks.length →
      bb.blocks.length - i + n < fuel →
      ∃ m, (reserveLoop capacity fuel bb i n).1 = appendNewBlock^[m] bb ∧
        (reserveLoop capacity fuel bb i n).2.flatMap Region.cells =
          ((appendNewBlock^[m] bb).spaceCellsFrom capacity i).take n ∧
        n ≤ ((appendNewBlock^[m] bb).spaceCellsFrom capacity i).length ∧
        (n ≤ (bb.spaceCellsFrom capacity i).length → m = 0)
  | 0, _, _, _, _, hfuel => absurd hfuel (Nat.not_lt_zero _)
  | fuel + 1, bb, i, n, hi, hfuel => by
      by_cases hn : n = 0
      · subst hn
        exact ⟨0, by simp [reserveLoop]⟩
      rw [reserveLoop_succ fuel bb i hn]
      obtain ⟨k, hk, hbb1, hlen1, hfresh⟩ := stepperNext_spec capacity bb hi
      generalize bb.stepperNext i = bb1 at hbb1 hlen1 hfresh ⊢
      subst hbb1
      generalize hs : ((appendNewBlock^[k] bb).blockAt i).spaceLen capacity = s at hfresh
      simp only [length_appendNewBlock_iterate] at hlen1 hfresh
      -- each round either moves along the list or covers at least one byte
      have hfuel1 : (appendNewBlock^[k] bb).blocks.length - (i + 1) + (n - min n s) < fuel := by
        rw [length_appendNewBlock_iterate]
        obtain rfl | rfl : k = 0 ∨ k = 1 := by omega
        · omega
        · obtain ⟨rfl, rfl⟩ := hfresh rfl
          omega
      obtain ⟨m, h1, h2, h3, h4⟩ :=
        reserveLoop_spec hcap fuel _ (i + 1) (n - min n s)
          (by rw [length_appendNewBlock_iterate]; omega) hfuel1
      have hsplit := spaceCellsFrom_of_prefix capacity
        (blocks_prefix_appendNewBlock_iterate m (appendNewBlock^[k] bb))
        (by rw [length_appendNewBlock_iterate]; omega)
      rw [← Function.iterate_add_apply] at h1 h2 h3 hsplit
      dsimp only
      rw [hs]
      refine ⟨m + k, h1, ?_, ?_, ?_⟩
      · rw [List.flatMap_cons, h2, hsplit, Block.spaceRegion_cells _ (by rw [hs]; omega),
          List.take_append, Block.length_spaceCells, hs]
        -- the region takes what the block has, up to what is missing
        congr 1
        · conv_rhs => rw [List.take_eq_take_min, Block.length_spaceCells, hs]
        · congr 1
          omega
      · rw [hsplit, List.length_append, Block.length_spaceCells, hs]
        omega
      · intro hroom
        have hlt : i < bb.blocks.length := lt_length_of_spaceCellsFrom
          (show 0 < (bb.spaceCellsFrom capacity i).length by omega)
        obtain rfl : k = 0 := by
          by_contra hk0
          exact absurd (hfresh (by omega)).1 (by omega)
        have hsplit0 := spaceCellsFrom_of_prefix capacity (List.prefix_refl _) hlt
        simp only [Function.iterate_zero, id] at hs
        rw [hsplit0, List.length_append, Block.length_spaceCells, hs] at hroom
        have hm := h4 (by simp only [Function.iterate_zero, id]; omega)
        omega

/-- One round of `ReserveAtLeast`'s loop: the stepper's block gives its whole
space. -/
theorem reserveAtLeastLoop_succ (fuel : Nat) (bb : BasicBuffer) (i : Nat) {reservedSize size : Nat}
    (hlt : reservedSize < size) :
    reserveAtLeastLoop capacity (fuel + 1) bb i reservedSize size =
      let block := (bb.stepperNext i).blockAt i
      let rest := reserveAtLeastLoop capacity fuel (bb.stepperNext i) (i + 1)
        (reservedSize + block.spaceLen capacity) size
      (rest.1, ⟨block.id, block.spaceHead, block.spaceLen capacity⟩ :: rest.2) := by
  simp only [reserveAtLeastLoop, if_pos hlt]

/-- `ReserveAtLeast`'s loop, given the fuel `reserveFuel` gives it, stops once
`size` is reached: it appends some blocks, and its regions are the whole
spaces of the blocks it visits, from the stepper on. -/
theorem reserveAtLeastLoop_spec (hcap : 0 < capacity) :
    ∀ (fuel : Nat) (bb : BasicBuffer) (i reservedSize size : Nat), i ≤ bb.blocks.length →
      bb.blocks.length - i + (size - reservedSize) < fuel →
      ∃ m, (reserveAtLeastLoop capacity fuel bb i reservedSize size).1 = appendNewBlock^[m] bb ∧
        (reserveAtLeastLoop capacity fuel bb i reservedSize size).2.flatMap Region.cells <+:
          (appendNewBlock^[m] bb).spaceCellsFrom capacity i ∧
        size ≤ reservedSize +
          ((reserveAtLeastLoop capacity fuel bb i reservedSize size).2.map (·.len)).sum
  | 0, _, _, _, _, _, hfuel => absurd hfuel (Nat.not_lt_zero _)
  | fuel + 1, bb, i, reservedSize, size, hi, hfuel => by
      by_cases hlt : reservedSize < size
      swap
      · simp only [reserveAtLeastLoop, if_neg hlt]
        exact ⟨0, rfl, List.nil_prefix, by simp; omega⟩
      rw [reserveAtLeastLoop_succ fuel bb i hlt]
      obtain ⟨k, hk, hbb1, hlen1, hfresh⟩ := stepperNext_spec capacity bb hi
      generalize bb.stepperNext i = bb1 at hbb1 hlen1 hfresh ⊢
      subst hbb1
      generalize hs : ((appendNewBlock^[k] bb).blockAt i).spaceLen capacity = s at hfresh
      simp only [length_appendNewBlock_iterate] at hlen1 hfresh
      -- each round either moves along the list or reserves a whole fresh block
      have hfuel1 : (appendNewBlock^[k] bb).blocks.length - (i + 1) +
          (size - (reservedSize + s)) < fuel := by
        rw [length_appendNewBlock_iterate]
        obtain rfl | rfl : k = 0 ∨ k = 1 := by omega
        · omega
        · obtain ⟨rfl, rfl⟩ := hfresh rfl
          omega
      obtain ⟨m, h1, h2, h3⟩ := reserveAtLeastLoop_spec hcap fuel _ (i + 1) (reservedSize + s) size
        (by rw [length_appendNewBlock_iterate]; omega) hfuel1
      have hsplit := spaceCellsFrom_of_prefix capacity
        (blocks_prefix_appendNewBlock_iterate m (appendNewBlock^[k] bb))
        (by rw [length_appendNewBlock_iterate]; omega)
      rw [← Function.iterate_add_apply] at h1 h2 hsplit
      dsimp only
      rw [hs]
      refine ⟨m + k, h1, ?_, ?_⟩
      · rw [List.flatMap_cons, hsplit, Block.spaceRegion_cells _ (Nat.le_of_eq (by rw [hs])),
          List.take_of_length_le (Nat.le_of_eq (by rw [Block.length_spaceCells, hs])),
          List.prefix_append_right_inj]
        exact h2
      · simp only [List.map_cons, List.sum_cons]
        omega

@[simp] theorem dataSize_appendNewBlock_iterate (m : Nat) (bb : BasicBuffer) :
    (appendNewBlock^[m] bb).dataSize = bb.dataSize :=
  congrFun (Function.iterate_invariant (g := dataSize) (funext appendNewBlock_dataSize) m) bb

@[simp] theorem reserved_appendNewBlock_iterate (m : Nat) (bb : BasicBuffer) :
    (appendNewBlock^[m] bb).reserved = bb.reserved :=
  congrFun (Function.iterate_invariant (g := reserved) (funext appendNewBlock_reserved) m) bb

@[simp] theorem peeked_appendNewBlock_iterate (m : Nat) (bb : BasicBuffer) :
    (appendNewBlock^[m] bb).peeked = bb.peeked :=
  congrFun (Function.iterate_invariant (g := peeked) (funext appendNewBlock_peeked) m) bb

/-- Fresh blocks add the same cells behind the old ones and behind the space
a stepper sees. -/
theorem cells_appendNewBlock_iterate (m : Nat) (bb : BasicBuffer) :
    ∃ fresh, (appendNewBlock^[m] bb).cells capacity = bb.cells capacity ++ fresh ∧
      ∀ i ≤ bb.blocks.length,
        (appendNewBlock^[m] bb).spaceCellsFrom capacity i = bb.spaceCellsFrom capacity i ++ fresh := by
  set blocks := (List.range' bb.nextId m).map fun id => (⟨id, 0, 0⟩ : Block)
  have hempty : blocks.flatMap (Block.spaceCells capacity) = blocks.flatMap (Block.cells capacity) :=
    List.flatMap_congr fun b hb => Block.spaceCells_of_len_eq_zero (by
      obtain ⟨id, -, rfl⟩ := List.mem_map.mp hb
      rfl)
  refine ⟨blocks.flatMap (Block.cells capacity), ?_, fun i hi => ?_⟩
  · simp [cells, appendNewBlock_iterate_blocks, blocks]
  · rw [spaceCellsFrom, appendNewBlock_iterate_blocks, List.drop_append_of_le_length hi,
      List.flatMap_append, hempty]
    rfl

end BasicBuffer

open BasicBuffer in
/-- Behind the layout's data, fresh blocks add only space. -/
theorem Layout.appendNewBlock_iterate_cells {bb : BasicBuffer} (hl : Layout capacity bb) (m : Nat) :
    (BasicBuffer.appendNewBlock^[m] bb).dataCells capacity = bb.dataCells capacity ∧
      (BasicBuffer.appendNewBlock^[m] bb).spaceCellsFrom capacity (bb.stepperStart capacity) =
        (BasicBuffer.appendNewBlock^[m] bb).spaceCells capacity := by
  obtain ⟨fresh, hcells, hfrom⟩ := @cells_appendNewBlock_iterate capacity m bb
  constructor
  · rw [dataCells, dataCells, hcells, dataSize_appendNewBlock_iterate,
      List.take_append_of_le_length hl.dataSize_le]
  · rw [hfrom _ hl.stepperStart_le, hl.spaceCellsFrom_stepperStart, spaceCells, spaceCells,
      hcells, dataSize_appendNewBlock_iterate, List.drop_append_of_le_length hl.dataSize_le]

end Stepper

/-! ## Reserve and ReserveAtLeast under the layout -/

section Reserve

open BasicBuffer

variable (capacity) in
/-- What `Reserve` and `ReserveAtLeast` leave of `bb`: the layout, the same
data, and `reserved_` set. -/
structure ReservedFrom (bb bb' : BasicBuffer) : Prop where
  layout : Layout capacity bb'
  dataSize_eq : bb'.dataSize = bb.dataSize
  reserved_eq : bb'.reserved = true
  peeked_eq : bb'.peeked = bb.peeked
  dataCells_eq : bb'.dataCells capacity = bb.dataCells capacity

variable {capacity : Nat} (hcap : 0 < capacity) {bb : BasicBuffer} (hl : Layout capacity bb)
include hcap hl

/-- `Reserve` is some `AppendNewBlock`s after setting `reserved_`; its
regions cover the first `n` cells of the space, and it appends nothing when
`n` fits in the space. -/
theorem Layout.reserve_spec (n : Nat) :
    ∃ m, (bb.reserve capacity n).1 = BasicBuffer.appendNewBlock^[m] { bb with reserved := true } ∧
      (bb.reserve capacity n).2.flatMap Region.cells =
        ((bb.reserve capacity n).1.spaceCells capacity).take n ∧
      n ≤ ((bb.reserve capacity n).1.spaceCells capacity).length ∧
      (n ≤ bb.spaceSize capacity → m = 0) := by
  have hl' : Layout capacity { bb with reserved := true } := hl.withFlags true bb.peeked
  obtain ⟨m, h1, h2, h3, h4⟩ := reserveLoop_spec hcap (bb.reserveFuel n) { bb with reserved := true }
    (bb.stepperStart capacity) n hl.stepperStart_le (by simp only [reserveFuel]; omega)
  have hspace := (hl'.appendNewBlock_iterate_cells m).2
  refine ⟨m, h1, ?_, ?_, fun hn => h4 ?_⟩
  · rw [reserve, h1, h2]
    exact congrArg (List.take n) hspace
  · rw [reserve, h1, ← hspace]
    exact h3
  · rw [hl.spaceSize_eq] at hn
    exact (hl'.spaceCellsFrom_stepperStart).symm ▸ hn

/-- What `Reserve` and `ReserveAtLeast` leave of the buffer: fresh blocks
behind and `reserved_` set, so the layout and the data as they were. -/
theorem Layout.reservedFrom_iterate (m : Nat) :
    ReservedFrom capacity bb (BasicBuffer.appendNewBlock^[m] { bb with reserved := true }) where
  layout := Layout.appendNewBlock_iterate hcap (hl.withFlags true bb.peeked) m
  dataSize_eq := BasicBuffer.dataSize_appendNewBlock_iterate m _
  reserved_eq := BasicBuffer.reserved_appendNewBlock_iterate m _
  peeked_eq := BasicBuffer.peeked_appendNewBlock_iterate m _
  dataCells_eq := ((hl.withFlags true bb.peeked).appendNewBlock_iterate_cells m).1

theorem Layout.reserve_reservedFrom (n : Nat) :
    ReservedFrom capacity bb (bb.reserve capacity n).1 := by
  obtain ⟨m, h1, -⟩ := hl.reserve_spec hcap n
  rw [h1]
  exact hl.reservedFrom_iterate hcap m

/-- `space_size` is exactly what `Reserve` hands out without a new block. -/
theorem Layout.reserve_blocks_eq_iff (n : Nat) :
    (bb.reserve capacity n).1.blocks = bb.blocks ↔ n ≤ bb.spaceSize capacity := by
  obtain ⟨m, h1, -, h3, h4⟩ := hl.reserve_spec hcap n
  constructor
  · intro hblocks
    have hm : m = 0 := by
      have := congrArg List.length hblocks
      rw [h1, length_appendNewBlock_iterate] at this
      simpa using this
    subst hm
    rw [h1] at h3
    rw [hl.spaceSize_eq]
    exact h3
  · intro hn
    rw [h1, h4 hn]
    rfl

/-- `ReserveAtLeast` is some `AppendNewBlock`s after setting `reserved_`; its
regions are a prefix of the space that reaches `size`. -/
theorem Layout.reserveAtLeast_spec (size : Nat) :
    ∃ m, (bb.reserveAtLeast capacity size).1 = BasicBuffer.appendNewBlock^[m] { bb with reserved := true } ∧
      (bb.reserveAtLeast capacity size).2.flatMap Region.cells <+:
        (bb.reserveAtLeast capacity size).1.spaceCells capacity ∧
      size ≤ ((bb.reserveAtLeast capacity size).2.map (·.len)).sum := by
  have hl' : Layout capacity { bb with reserved := true } := hl.withFlags true bb.peeked
  obtain ⟨m, h1, h2, h3⟩ := reserveAtLeastLoop_spec hcap (bb.reserveFuel size)
    { bb with reserved := true } (bb.stepperStart capacity) 0 size hl.stepperStart_le
    (by simp only [reserveFuel]; omega)
  have hspace := (hl'.appendNewBlock_iterate_cells m).2
  refine ⟨m, h1, ?_, by rw [reserveAtLeast]; simpa using h3⟩
  rw [reserveAtLeast, h1, ← hspace]
  exact h2

theorem Layout.reserveAtLeast_reservedFrom (size : Nat) :
    ReservedFrom capacity bb (bb.reserveAtLeast capacity size).1 := by
  obtain ⟨m, h1, -⟩ := hl.reserveAtLeast_spec hcap size
  rw [h1]
  exact hl.reservedFrom_iterate hcap m

end Reserve

/-! ## Commit -/

section Commit

variable (capacity : Nat)

/-- Where `Commit`'s stepper stands as it runs: on `end_`, or just past it
once `end_` is full while bytes remain. -/
def CommitAt (blocks : List Block) (endId : Option Nat) (i remaining : Nat) : Prop :=
  ∃ pre e post, blocks = pre ++ e :: post ∧ endId = some e.id ∧
    (∀ b ∈ pre, b.offset + b.len = capacity) ∧ (∀ b ∈ post, b.len = 0) ∧
    (i = pre.length ∨ i = pre.length + 1 ∧ (0 < remaining → e.offset + e.len = capacity))

variable {capacity}

theorem Block.commit_eq (b : Block) (r : Nat) :
    b.commit capacity r = ({ b with len := b.len + min r (b.spaceLen capacity) },
      r - min r (b.spaceLen capacity)) := by
  have hmin : (if r < b.spaceLen capacity then r else b.spaceLen capacity) =
      min r (b.spaceLen capacity) := by
    split <;> omega
  simp only [Block.commit, hmin]

/-- A block that leaves bytes to commit is full. -/
theorem Block.commit_full {b : Block} {r : Nat} (hb : b.offset + b.len ≤ capacity)
    (hr : 0 < (b.commit capacity r).2) :
    (b.commit capacity r).1.offset + (b.commit capacity r).1.len = capacity := by
  rw [Block.commit_eq] at hr ⊢
  simp only [Block.spaceLen] at hr ⊢
  omega

theorem CommitAt.endSplit {blocks : List Block} {endId : Option Nat} {i r : Nat}
    (h : CommitAt capacity blocks endId i r) : EndSplit capacity blocks endId := by
  obtain ⟨pre, e, post, hblocks, hend, hpre, hpost, -⟩ := h
  exact .inr ⟨pre, e, post, hblocks, hend, hpre, hpost⟩

/-- `SpaceStepper`'s start is where `Commit` may start. -/
theorem Layout.commitAt_stepperStart {bb : BasicBuffer} (hl : Layout capacity bb)
    (hne : bb.blocks ≠ []) (r : Nat) :
    CommitAt capacity bb.blocks bb.endId (bb.stepperStart capacity) r := by
  rcases hl.split with ⟨hnil, -⟩ | ⟨pre, e, post, hblocks, hend, hpre, hpost⟩
  · exact absurd hnil hne
  refine ⟨pre, e, post, hblocks, hend, hpre, hpost, ?_⟩
  rw [hl.stepperStart_eq hblocks hend]
  have hbounded : e.offset + e.len ≤ capacity := hl.bounded e (by simp [hblocks])
  split
  · exact .inr ⟨rfl, fun _ => by simp only [Block.spaceLen] at *; omega⟩
  · exact .inl rfl

/-- One round of `Commit`: the block the stepper stands on becomes `end_`,
and the stepper moves past it. -/
theorem CommitAt.step {blocks : List Block} {endId : Option Nat} {i r : Nat}
    (hfit : BlocksFit capacity blocks) (h : CommitAt capacity blocks endId i r) (hr : 0 < r)
    (hi : i < blocks.length) :
    CommitAt capacity (blocks.set i ((blocks.getD i default).commit capacity r).1)
      (some ((blocks.getD i default).commit capacity r).1.id) (i + 1)
      ((blocks.getD i default).commit capacity r).2 := by
  obtain ⟨pre, e, post, rfl, -, hpre, hpost, hi' | ⟨rfl, hfull⟩⟩ := h
  · -- the stepper on `end_`: it takes the bytes and stays `end_`
    subst hi'
    have hget : (pre ++ e :: post).getD pre.length default = e := by simp
    rw [hget]
    have hbounded : e.offset + e.len ≤ capacity := hfit.bounded e (by simp)
    refine ⟨pre, (e.commit capacity r).1, post, by simp [List.set_append_right], rfl, hpre, hpost,
      .inr ⟨rfl, Block.commit_full hbounded⟩⟩
  · -- the stepper past a full `end_`: the next block, empty, becomes `end_`
    obtain ⟨p, post, rfl⟩ : ∃ p rest, post = p :: rest := by
      cases post with
      | nil => simp at hi
      | cons p rest => exact ⟨p, rest, rfl⟩
    have hget : (pre ++ e :: p :: post).getD (pre.length + 1) default = p := by simp
    rw [hget]
    have hbounded : p.offset + p.len ≤ capacity := hfit.bounded p (by simp)
    refine ⟨pre ++ [e], (p.commit capacity r).1, post, by simp [List.set_append_right], rfl,
      ?_, fun b hb => hpost b (by simp [hb]), .inr ⟨by simp, Block.commit_full hbounded⟩⟩
    simp only [List.mem_append, List.mem_singleton]
    rintro b (hb | rfl)
    · exact hpre b hb
    · exact hfull hr

/-- Replacing a block by one with its address and offset keeps the cells and
the addresses; with its data inside the block, the blocks still fit. -/
theorem BlocksFit.set {blocks : List Block} (hfit : BlocksFit capacity blocks) {i : Nat}
    (hi : i < blocks.length) {b : Block} (hoff : b.offset = blocks[i].offset)
    (hlen : b.offset + b.len ≤ capacity) : BlocksFit capacity (blocks.set i b) where
  offset_lt c hc := by
    rcases List.mem_or_eq_of_mem_set hc with hc | rfl
    · exact hfit.offset_lt c hc
    · rw [hoff]
      exact hfit.offset_lt _ (List.getElem_mem hi)
  bounded c hc := by
    rcases List.mem_or_eq_of_mem_set hc with hc | rfl
    · exact hfit.bounded c hc
    · exact hlen
  offset_tail c hc := by
    cases blocks with
    | nil => simp at hi
    | cons a rest =>
        cases i with
        | zero => exact hfit.offset_tail c (by simpa using hc)
        | succ i =>
            simp only [List.set_cons_succ, List.tail_cons] at hc
            rcases List.mem_or_eq_of_mem_set hc with hc | rfl
            · exact hfit.offset_tail c hc
            · rw [hoff]
              exact hfit.offset_tail _ (List.getElem_mem (by simpa using hi))

theorem map_set_of_eq {α β : Type*} (f : α → β) {l : List α} {i : Nat} (hi : i < l.length)
    {a : α} (ha : f a = f l[i]) : (l.set i a).map f = l.map f := by
  apply List.ext_getElem (by simp)
  intro j h1 h2
  rw [List.getElem_map, List.getElem_set, List.getElem_map]
  split
  · subst_vars
    exact ha
  · rfl

theorem sum_len_set {blocks : List Block} {i : Nat} (hi : i < blocks.length) (b : Block) :
    ((blocks.set i b).map (·.len)).sum + blocks[i].len = (blocks.map (·.len)).sum + b.len := by
  conv_rhs => rw [← List.take_append_drop i blocks, List.drop_eq_getElem_cons hi]
  rw [List.set_eq_take_append_cons_drop, if_pos hi]
  simp only [List.map_append, List.map_cons, List.sum_append, List.sum_cons]
  omega

namespace BasicBuffer

/-- One round of `Commit`'s loop on a block of the list. -/
theorem commitLoop_succ (fuel : Nat) (bb : BasicBuffer) {i r : Nat} (hr : r ≠ 0)
    (hi : i < bb.blocks.length) :
    commitLoop capacity (fuel + 1) bb i r =
      commitLoop capacity fuel
        { bb with
          blocks := bb.blocks.set i ((bb.blockAt i).commit capacity r).1
          endId := some ((bb.blockAt i).commit capacity r).1.id }
        (i + 1) ((bb.blockAt i).commit capacity r).2 := by
  simp only [commitLoop, if_neg hr, stepperNext, if_pos hi]

/-- `Commit`'s loop over space that is there: each block it visits keeps its
address and offset and takes bytes into its space, the last one becomes
`end_`, and all `r` bytes are committed. -/
theorem commitLoop_spec : ∀ (fuel : Nat) (bb : BasicBuffer) (i r : Nat),
    BlocksFit capacity bb.blocks → CommitAt capacity bb.blocks bb.endId i r →
    r ≤ (bb.spaceCellsFrom capacity i).length → bb.blocks.length - i < fuel →
    ∃ blocks endId, commitLoop capacity fuel bb i r = { bb with blocks := blocks, endId := endId } ∧
      BlocksFit capacity blocks ∧ EndSplit capacity blocks endId ∧
      blocks.map (fun b => (b.id, b.offset)) = bb.blocks.map (fun b => (b.id, b.offset)) ∧
      (blocks.map (·.len)).sum = (bb.blocks.map (·.len)).sum + r
  | 0, _, _, _, _, _, _, hfuel => absurd hfuel (Nat.not_lt_zero _)
  | fuel + 1, bb, i, r, hfit, hat, hroom, hfuel => by
      by_cases hr : r = 0
      · subst hr
        exact ⟨bb.blocks, bb.endId, by simp [commitLoop], hfit, hat.endSplit, rfl, rfl⟩
      have hi : i < bb.blocks.length :=
        lt_length_of_spaceCellsFrom (show 0 < (bb.spaceCellsFrom capacity i).length by omega)
      rw [commitLoop_succ fuel bb hr hi]
      have hblock : bb.blockAt i = bb.blocks[i] := by
        simp [blockAt, List.getD_eq_getElem?_getD, List.getElem?_eq_getElem hi]
      have hcommit := @Block.commit_eq capacity bb.blocks[i] r
      have hbounded : bb.blocks[i].offset + bb.blocks[i].len ≤ capacity :=
        hfit.bounded _ (List.getElem_mem hi)
      -- the next round starts from the updated list, past the block
      have hsplit := spaceCellsFrom_of_prefix capacity (List.prefix_refl bb.blocks) hi
      have hfit1 := hfit.set hi (b := ((bb.blockAt i).commit capacity r).1)
        (by rw [hblock, hcommit]) (by rw [hblock, hcommit]; simp only [Block.spaceLen]; omega)
      obtain ⟨blocks, endId, heq, hfit', hsplit', hkeys, hsum⟩ := commitLoop_spec fuel
        { bb with
          blocks := bb.blocks.set i ((bb.blockAt i).commit capacity r).1
          endId := some ((bb.blockAt i).commit capacity r).1.id }
        (i + 1) ((bb.blockAt i).commit capacity r).2 hfit1 (hat.step hfit (Nat.pos_of_ne_zero hr) hi)
        (by
          rw [spaceCellsFrom, List.drop_set, if_pos (Nat.lt_succ_self i), ← spaceCellsFrom]
          rw [hsplit, List.length_append, Block.length_spaceCells] at hroom
          rw [hblock] at hroom ⊢
          rw [hcommit]
          omega)
        (by simp only [List.length_set]; omega)
      refine ⟨blocks, endId, heq, hfit', hsplit', ?_, ?_⟩
      · rw [hkeys, map_set_of_eq _ hi (by rw [hblock, hcommit])]
      · have hset := sum_len_set hi ((bb.blockAt i).commit capacity r).1
        rw [hsum]
        rw [hblock, hcommit] at hset ⊢
        simp only at hset ⊢
        omega

@[simp] theorem commit_dataSize (bb : BasicBuffer) (k : Nat) :
    (bb.commit capacity k).dataSize = bb.dataSize + k := rfl

@[simp] theorem commit_reserved (bb : BasicBuffer) (k : Nat) :
    (bb.commit capacity k).reserved = false := rfl

end BasicBuffer

/-- The cells of a list of blocks depend on their addresses and offsets only. -/
theorem flatMap_cells_eq_of_keys {blocks blocks' : List Block}
    (h : blocks.map (fun b => (b.id, b.offset)) = blocks'.map (fun b => (b.id, b.offset))) :
    blocks.flatMap (Block.cells capacity) = blocks'.flatMap (Block.cells capacity) := by
  have hcells : ∀ l : List Block, l.flatMap (Block.cells capacity) =
      (l.map (fun b => (b.id, b.offset))).flatMap
        (fun p => (List.range' p.2 (capacity - p.2)).map (p.1, ·)) := fun l => by
    rw [List.flatMap_map]
    rfl
  rw [hcells, h, ← hcells]

section CommitLayout

open BasicBuffer

variable {bb : BasicBuffer} (hl : Layout capacity bb) {k : Nat} (hk : k ≤ bb.spaceSize capacity)
include hl hk

/-- `Commit` within the space: new lengths and a new `end_` on the same
blocks, the size grown by `k`, the reserve closed. -/
theorem Layout.commit_spec :
    ∃ blocks endId, bb.commit capacity k =
        { bb with blocks := blocks, endId := endId, dataSize := bb.dataSize + k, reserved := false } ∧
      BlocksFit capacity blocks ∧ EndSplit capacity blocks endId ∧
      blocks.map (fun b => (b.id, b.offset)) = bb.blocks.map (fun b => (b.id, b.offset)) ∧
      (blocks.map (·.len)).sum = (bb.blocks.map (·.len)).sum + k := by
  by_cases hk0 : k = 0
  · subst hk0
    exact ⟨bb.blocks, bb.endId, by simp [commit, commitLoop, reserveFuel], hl.toBlocksFit,
      hl.split, rfl, rfl⟩
  have hne : bb.blocks ≠ [] := by
    intro hnil
    rw [hl.spaceSize_eq] at hk
    simp [BasicBuffer.spaceCells, BasicBuffer.cells, hnil] at hk
    omega
  obtain ⟨blocks, endId, heq, hfit, hsplit, hkeys, hsum⟩ :=
    commitLoop_spec (bb.reserveFuel k) bb (bb.stepperStart capacity) k hl.toBlocksFit
      (hl.commitAt_stepperStart hne k)
      (by rw [hl.spaceCellsFrom_stepperStart, ← hl.spaceSize_eq]; exact hk)
      (by simp only [reserveFuel]; omega)
  exact ⟨blocks, endId, by rw [commit, heq], hfit, hsplit, hkeys, hsum⟩

theorem Layout.commit : Layout capacity (bb.commit capacity k) := by
  obtain ⟨blocks, endId, heq, hfit, hsplit, hkeys, hsum⟩ := hl.commit_spec hk
  have hids : blocks.map (·.id) = bb.blocks.map (·.id) := by
    simpa [List.map_map, Function.comp_def] using congrArg (List.map Prod.fst) hkeys
  have hlen : blocks.length = bb.blocks.length := by
    simpa using congrArg List.length hkeys
  rw [heq]
  refine ⟨hfit, hids ▸ hl.ids_nodup, fun b hb => ?_, hsplit, hl.blockCnt_eq.trans hlen.symm, ?_⟩
  · have hmem : b.id ∈ bb.blocks.map (·.id) := hids ▸ List.mem_map_of_mem (f := Block.id) hb
    obtain ⟨b', hb', hid⟩ := List.mem_map.mp hmem
    rw [← hid]
    exact hl.ids_lt b' hb'
  · simp only
    rw [hsum, hl.dataSize_eq]

theorem Layout.cells_commit : (bb.commit capacity k).cells capacity = bb.cells capacity := by
  obtain ⟨blocks, endId, heq, -, -, hkeys, -⟩ := hl.commit_spec hk
  rw [heq]
  exact flatMap_cells_eq_of_keys hkeys

theorem Layout.commit_peeked : (bb.commit capacity k).peeked = bb.peeked := by
  obtain ⟨blocks, endId, heq, -⟩ := hl.commit_spec hk
  rw [heq]

end CommitLayout

end Commit

end ControlPlane.Proxy
