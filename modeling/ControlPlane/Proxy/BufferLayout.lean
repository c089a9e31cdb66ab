import ControlPlane.Proxy.Buffer
import Mathlib.Data.List.Nodup
import Mathlib.Logic.Function.Iterate

/-!
# The layout of a BasicBuffer

Every block holds its data and then its space, from `offset` to the end of
the block; laid end to end from the head these are the buffer's cells. The
shape `BasicBuffer` keeps (`Layout`) puts the data in front: blocks before
`end_` are full, blocks after it hold no data. So the cells `Peek` hands out
are the first `data_size` cells (`peekCells`), and `space_size` counts the
rest (`spaceSize_eq`).

`Commit` and `Drain` change `len` and the head's `offset` only: the cells stay
as they are, or lose their front, while the boundary between data and space
moves.
-/

namespace ControlPlane.Proxy

/-- A byte's place: the address of its block and its position there. -/
abbrev Cell := Nat × Nat

def Region.cells (r : Region) : List Cell := (List.range' r.start r.len).map (r.block, ·)

theorem Region.bytes_eq (mem : Memory) (r : Region) :
    r.bytes mem = r.cells.map fun c => mem c.1 c.2 := by
  simp [Region.bytes, Region.cells, List.range'_eq_map_range]

theorem readRegions_eq (mem : Memory) (regions : List Region) :
    readRegions mem regions = (regions.flatMap Region.cells).map fun c => mem c.1 c.2 := by
  simp only [readRegions, List.map_flatMap, ← Region.bytes_eq]

section Layout

variable (capacity : Nat)

/-- The cells of a block from the start of its data to its end. -/
def Block.cells (b : Block) : List Cell :=
  (List.range' b.offset (capacity - b.offset)).map (b.id, ·)

/-- The region of a block's data, as `Peek` hands it out. -/
def Block.dataRegion (b : Block) : Region := ⟨b.id, b.offset, b.dataLen⟩

def BasicBuffer.cells (bb : BasicBuffer) : List Cell := bb.blocks.flatMap (Block.cells capacity)

/-- The first `data_size` cells: where the data is, in order. -/
def BasicBuffer.dataCells (bb : BasicBuffer) : List Cell := (bb.cells capacity).take bb.dataSize

/-- The cells behind the data. -/
def BasicBuffer.spaceCells (bb : BasicBuffer) : List Cell := (bb.cells capacity).drop bb.dataSize

/-- The cells of a block behind its data: where `Reserve` hands out space. -/
def Block.spaceCells (b : Block) : List Cell := (b.cells capacity).drop b.len

/-- The space cells from the block at position `i` to the tail: what a
`SpaceStepper` started at `i` walks over. -/
def BasicBuffer.spaceCellsFrom (bb : BasicBuffer) (i : Nat) : List Cell :=
  (bb.blocks.drop i).flatMap (Block.spaceCells capacity)

/-- What every block of a list keeps: its offset inside the block, its data
fitting behind it, and an offset on the head only. -/
structure BlocksFit (blocks : List Block) : Prop where
  offset_lt : ∀ b ∈ blocks, b.offset < capacity
  bounded : ∀ b ∈ blocks, b.offset + b.len ≤ capacity
  offset_tail : ∀ b ∈ blocks.tail, b.offset = 0

/-- Where `end_` stands: no block and no `end_`, or full blocks before `end_`
and blocks without data after it. -/
def EndSplit (blocks : List Block) (endId : Option Nat) : Prop :=
  (blocks = [] ∧ endId = none) ∨
    ∃ pre e post, blocks = pre ++ e :: post ∧ endId = some e.id ∧
      (∀ b ∈ pre, b.offset + b.len = capacity) ∧ ∀ b ∈ post, b.len = 0

/-- The shape `BasicBuffer` keeps: the blocks fit, the data sits in front of
`end_`, the addresses are distinct and below `nextId`, and the counters
count. -/
structure Layout (bb : BasicBuffer) : Prop extends BlocksFit capacity bb.blocks where
  ids_nodup : (bb.blocks.map (·.id)).Nodup
  ids_lt : ∀ b ∈ bb.blocks, b.id < bb.nextId
  split : EndSplit capacity bb.blocks bb.endId
  blockCnt_eq : bb.blockCnt = bb.blocks.length
  dataSize_eq : bb.dataSize = (bb.blocks.map (·.len)).sum

variable {capacity}

@[simp] theorem Block.length_cells (b : Block) : (b.cells capacity).length = capacity - b.offset := by
  simp [Block.cells]

theorem Block.cells_take_len {b : Block} (h : b.offset + b.len ≤ capacity) :
    (b.cells capacity).take b.len = (b.dataRegion).cells := by
  simp only [Block.cells, Block.dataRegion, Block.dataLen, Region.cells, ← List.map_take]
  congr 1
  obtain ⟨k, hk⟩ : ∃ k, capacity - b.offset = b.len + k := ⟨capacity - b.offset - b.len, by omega⟩
  rw [hk, ← List.range'_append]
  simp

/-- A full block's data is all of its cells. -/
theorem Block.dataRegion_cells_of_full {b : Block} (h : b.offset + b.len = capacity) :
    (b.dataRegion).cells = b.cells capacity := by
  rw [← Block.cells_take_len (Nat.le_of_eq h), List.take_of_length_le (by simp; omega)]

/-- The regions `Peek` hands out under the layout: every block before `end_`,
then `end_` when it holds data. -/
theorem peekRegions_split {pre post : List Block} {e : Block}
    (hpre : ∀ b ∈ pre, 0 < b.len) (hpost : ∀ b ∈ post, b.len = 0) :
    BasicBuffer.peekRegions (pre ++ e :: post) =
      pre.map Block.dataRegion ++ if 0 < e.len then [e.dataRegion] else [] := by
  induction pre with
  | nil =>
      cases post with
      | nil => by_cases he : 0 < e.len <;> simp [BasicBuffer.peekRegions, Block.dataLen, he,
          Block.dataRegion]
      | cons p post =>
          have hp : p.len = 0 := hpost p (by simp)
          by_cases he : 0 < e.len <;> simp [BasicBuffer.peekRegions, Block.dataLen, he, hp,
            Block.dataRegion]
  | cons b pre ih =>
      have hb : 0 < b.len := hpre b (by simp)
      rw [List.cons_append, BasicBuffer.peekRegions, if_pos (show b.dataLen > 0 from hb),
        ih (fun b' hb' => hpre b' (by simp [hb']))]
      simp [Block.dataRegion, Block.dataLen]

/-- `Peek` hands out only regions with data. -/
theorem BasicBuffer.len_pos_of_mem_peekRegions {blocks : List Block} {r : Region}
    (hr : r ∈ BasicBuffer.peekRegions blocks) : 0 < r.len := by
  induction blocks with
  | nil => simp [BasicBuffer.peekRegions] at hr
  | cons b bs ih =>
      rw [BasicBuffer.peekRegions] at hr
      split at hr
      · rcases List.mem_cons.mp hr with rfl | hr
        · assumption
        · exact ih hr
      · simp at hr

theorem length_flatMap_cells_of_full {pre : List Block}
    (hpre : ∀ b ∈ pre, b.offset + b.len = capacity) :
    (pre.flatMap (Block.cells capacity)).length = (pre.map (·.len)).sum := by
  induction pre with
  | nil => rfl
  | cons b pre ih =>
      have hb := hpre b (by simp)
      simp only [List.flatMap_cons, List.length_append, Block.length_cells, List.map_cons,
        List.sum_cons]
      rw [ih (fun b' hb' => hpre b' (by simp [hb']))]
      omega

theorem flatMap_dataRegion_cells_of_full {pre : List Block}
    (hpre : ∀ b ∈ pre, b.offset + b.len = capacity) :
    pre.flatMap (fun b => b.dataRegion.cells) = pre.flatMap (Block.cells capacity) :=
  List.flatMap_congr fun b hb => Block.dataRegion_cells_of_full (hpre b hb)

theorem sum_len_eq_zero {post : List Block} (hpost : ∀ b ∈ post, b.len = 0) :
    (post.map (·.len)).sum = 0 := by
  induction post with
  | nil => rfl
  | cons b post ih =>
      simp [hpost b (by simp), ih (fun b' hb' => hpost b' (by simp [hb']))]

theorem sum_len_le_length_cells {blocks : List Block}
    (h : ∀ b ∈ blocks, b.offset + b.len ≤ capacity) :
    (blocks.map (·.len)).sum ≤ (blocks.flatMap (Block.cells capacity)).length := by
  induction blocks with
  | nil => simp
  | cons b blocks ih =>
      have hb := h b (by simp)
      simp only [List.map_cons, List.sum_cons, List.flatMap_cons, List.length_append,
        Block.length_cells]
      have := ih (fun b' hb' => h b' (by simp [hb']))
      omega

@[simp] theorem Block.length_spaceCells (b : Block) :
    (b.spaceCells capacity).length = b.spaceLen capacity := by
  simp [Block.spaceCells, Block.spaceLen, Nat.sub_sub]

theorem Block.spaceCells_of_len_eq_zero {b : Block} (h : b.len = 0) :
    b.spaceCells capacity = b.cells capacity := by
  simp [Block.spaceCells, h]

@[simp] theorem Region.length_cells (r : Region) : r.cells.length = r.len := by
  simp [Region.cells]

namespace BasicBuffer

@[simp] theorem appendNewBlock_blocks (bb : BasicBuffer) :
    bb.appendNewBlock.blocks = bb.blocks ++ [⟨bb.nextId, 0, 0⟩] := by
  unfold appendNewBlock
  split <;> simp_all

@[simp] theorem appendNewBlock_nextId (bb : BasicBuffer) :
    bb.appendNewBlock.nextId = bb.nextId + 1 := by
  unfold appendNewBlock
  split <;> rfl

@[simp] theorem appendNewBlock_blockCnt (bb : BasicBuffer) :
    bb.appendNewBlock.blockCnt = bb.blockCnt + 1 := by
  unfold appendNewBlock
  split <;> rfl

@[simp] theorem appendNewBlock_dataSize (bb : BasicBuffer) :
    bb.appendNewBlock.dataSize = bb.dataSize := by
  unfold appendNewBlock
  split <;> rfl

@[simp] theorem appendNewBlock_reserved (bb : BasicBuffer) :
    bb.appendNewBlock.reserved = bb.reserved := by
  unfold appendNewBlock
  split <;> rfl

@[simp] theorem appendNewBlock_peeked (bb : BasicBuffer) :
    bb.appendNewBlock.peeked = bb.peeked := by
  unfold appendNewBlock
  split <;> rfl

theorem appendNewBlock_endId (bb : BasicBuffer) :
    bb.appendNewBlock.endId = if bb.blocks = [] then some bb.nextId else bb.endId := by
  unfold appendNewBlock
  split <;> simp_all

/-- `m` calls of `AppendNewBlock` put `m` fresh empty blocks at the tail. -/
theorem appendNewBlock_iterate_blocks (m : Nat) (bb : BasicBuffer) :
    (appendNewBlock^[m] bb).blocks =
      bb.blocks ++ (List.range' bb.nextId m).map fun id => ⟨id, 0, 0⟩ := by
  induction m generalizing bb with
  | zero => simp
  | succ m ih => simp [Function.iterate_succ_apply, ih, List.range'_succ]

theorem blocks_prefix_appendNewBlock_iterate (m : Nat) (bb : BasicBuffer) :
    bb.blocks <+: (appendNewBlock^[m] bb).blocks := by
  rw [appendNewBlock_iterate_blocks]
  exact List.prefix_append _ _

@[simp] theorem length_appendNewBlock_iterate (m : Nat) (bb : BasicBuffer) :
    (appendNewBlock^[m] bb).blocks.length = bb.blocks.length + m := by
  simp [appendNewBlock_iterate_blocks]

end BasicBuffer

namespace Layout

variable {bb : BasicBuffer} (hl : Layout capacity bb)
include hl

theorem len_pos_of_full {b : Block} (hb : b ∈ bb.blocks) (hfull : b.offset + b.len = capacity) :
    0 < b.len := by
  have := hl.offset_lt b hb
  omega

/-- The cells `Peek` hands out are the first `data_size` cells. -/
theorem peekCells :
    (BasicBuffer.peekRegions bb.blocks).flatMap Region.cells = bb.dataCells capacity := by
  unfold BasicBuffer.dataCells
  rcases hl.split with ⟨hnil, -⟩ | ⟨pre, e, post, hblocks, -, hpre, hpost⟩
  · simp [hnil, BasicBuffer.peekRegions, BasicBuffer.cells]
  have hpre_pos : ∀ b ∈ pre, 0 < b.len := fun b hb =>
    hl.len_pos_of_full (by rw [hblocks]; simp [hb]) (hpre b hb)
  have he : e.offset + e.len ≤ capacity := hl.bounded e (by rw [hblocks]; simp)
  rw [hblocks, peekRegions_split hpre_pos hpost, hl.dataSize_eq, hblocks]
  simp only [BasicBuffer.cells, hblocks, List.flatMap_append, List.flatMap_map,
    List.flatMap_cons, List.map_append, List.map_cons, List.sum_append, List.sum_cons,
    sum_len_eq_zero hpost, Nat.add_zero]
  rw [flatMap_dataRegion_cells_of_full hpre, List.take_append,
    length_flatMap_cells_of_full hpre, Nat.add_sub_cancel_left,
    List.take_of_length_le (by rw [length_flatMap_cells_of_full hpre]; omega),
    List.take_append_of_le_length (by simp; omega), Block.cells_take_len he]
  congr 1
  by_cases hlen : 0 < e.len
  · simp [hlen]
  · simp [Block.dataRegion, Block.dataLen, Region.cells, show e.len = 0 by omega]

/-- `space_size` counts the cells after the data. -/
theorem spaceSize_eq : bb.spaceSize capacity = (bb.spaceCells capacity).length := by
  rw [BasicBuffer.spaceCells, List.length_drop]
  rcases hblocks : bb.blocks with _ | ⟨head, rest⟩
  · simp [BasicBuffer.spaceSize, BasicBuffer.cells, hblocks]
  have hrest : ∀ b ∈ rest, b.offset = 0 := fun b hb => hl.offset_tail b (by simp [hblocks, hb])
  have hcells : (rest.flatMap (Block.cells capacity)).length = rest.length * capacity := by
    clear hblocks
    induction rest with
    | nil => simp
    | cons b rest ih =>
        simp only [List.flatMap_cons, List.length_append, Block.length_cells, List.length_cons,
          hrest b (by simp), Nat.sub_zero]
        rw [ih (fun b' hb' => hrest b' (by simp [hb'])), Nat.add_mul, Nat.one_mul, Nat.add_comm]
  have hhead : head.offset < capacity := hl.offset_lt head (by simp [hblocks])
  simp only [BasicBuffer.spaceSize, BasicBuffer.cells, hblocks, List.head?_cons,
    List.flatMap_cons, List.length_append, Block.length_cells, hcells, hl.blockCnt_eq,
    List.length_cons]
  rw [Nat.sub_right_comm]
  congr 1
  rw [Nat.add_mul, Nat.one_mul]
  omega

theorem dataSize_le : bb.dataSize ≤ (bb.cells capacity).length := by
  rw [hl.dataSize_eq, BasicBuffer.cells]
  exact sum_len_le_length_cells hl.bounded

@[simp] theorem length_dataCells : (bb.dataCells capacity).length = bb.dataSize := by
  simp [BasicBuffer.dataCells, hl.dataSize_le]

/-- Cells of distinct blocks are distinct: every cell is one byte. -/
theorem cells_nodup : (bb.cells capacity).Nodup := by
  have hpair : bb.blocks.Pairwise (fun a b => a.id ≠ b.id) := List.pairwise_map.mp hl.ids_nodup
  rw [BasicBuffer.cells, List.nodup_flatMap]
  refine ⟨fun b _ => (List.nodup_range' ..).map fun x y h => (Prod.mk.inj h).2, ?_⟩
  refine hpair.imp fun {a b} hab => ?_
  simp only [Function.onFun, Block.cells, List.disjoint_iff_ne, List.mem_map]
  rintro _ ⟨x, -, rfl⟩ _ ⟨y, -, rfl⟩ h
  exact hab (Prod.mk.inj h).1

/-- The data and the space are apart. -/
theorem dataCells_disjoint_spaceCells : (bb.dataCells capacity).Disjoint (bb.spaceCells capacity) :=
  List.disjoint_take_drop hl.cells_nodup (Nat.le_refl _)

/-- The layout does not look at the protocol flags. -/
theorem withFlags (reserved peeked : Bool) :
    Layout capacity { bb with reserved := reserved, peeked := peeked } :=
  ⟨hl.toBlocksFit, hl.ids_nodup, hl.ids_lt, hl.split, hl.blockCnt_eq, hl.dataSize_eq⟩

/-- `end_` sits at the position of the block with its address. -/
theorem endIndex_eq {pre post : List Block} {e : Block} (hblocks : bb.blocks = pre ++ e :: post)
    (hend : bb.endId = some e.id) : bb.endIndex = some pre.length := by
  have hids := hl.ids_nodup
  rw [hblocks, List.map_append, List.map_cons, List.nodup_append] at hids
  have hpre : ∀ b ∈ pre, (b.id == e.id) = false := fun b hb => by
    simpa using hids.2.2 b.id (List.mem_map_of_mem hb) e.id (by simp)
  simp [BasicBuffer.endIndex, hend, hblocks, List.findIdx?_append,
    List.findIdx?_eq_none_iff.mpr hpre, List.findIdx?_cons]

/-- The `SpaceStepper` starts at `end_`, or just after it when `end_` is
full. -/
theorem stepperStart_eq {pre post : List Block} {e : Block} (hblocks : bb.blocks = pre ++ e :: post)
    (hend : bb.endId = some e.id) :
    bb.stepperStart capacity = if e.spaceLen capacity = 0 then pre.length + 1 else pre.length := by
  have he : bb.blockAt pre.length = e := by simp [BasicBuffer.blockAt, hblocks]
  simp [BasicBuffer.stepperStart, hl.endIndex_eq hblocks hend, he]

theorem stepperStart_le : bb.stepperStart capacity ≤ bb.blocks.length := by
  rcases hl.split with ⟨hnil, hend⟩ | ⟨pre, e, post, hblocks, hend, -, -⟩
  · simp [BasicBuffer.stepperStart, BasicBuffer.endIndex, hend]
  · rw [hl.stepperStart_eq hblocks hend, hblocks]
    split <;> simp

/-- The stepper walks over exactly the space behind the data. -/
theorem spaceCellsFrom_stepperStart :
    bb.spaceCellsFrom capacity (bb.stepperStart capacity) = bb.spaceCells capacity := by
  rcases hl.split with ⟨hnil, hend⟩ | ⟨pre, e, post, hblocks, hend, hpre, hpost⟩
  · simp [BasicBuffer.stepperStart, BasicBuffer.endIndex, BasicBuffer.spaceCellsFrom,
      BasicBuffer.spaceCells, BasicBuffer.cells, hend, hnil]
  have hbounded : e.offset + e.len ≤ capacity := hl.bounded e (by simp [hblocks])
  have hpost_cells : post.flatMap (Block.spaceCells capacity) = post.flatMap (Block.cells capacity) :=
    List.flatMap_congr fun b hb => Block.spaceCells_of_len_eq_zero (hpost b hb)
  -- from `end_` on: its space, then the blocks without data
  have hfrom : bb.spaceCellsFrom capacity pre.length =
      e.spaceCells capacity ++ post.flatMap (Block.cells capacity) := by
    simp [BasicBuffer.spaceCellsFrom, hblocks, hpost_cells]
  have hstart : bb.spaceCellsFrom capacity (bb.stepperStart capacity) =
      bb.spaceCellsFrom capacity pre.length := by
    rw [hl.stepperStart_eq hblocks hend]
    split
    · have hempty : e.spaceCells capacity = [] := List.eq_nil_of_length_eq_zero (by simpa)
      rw [hfrom, hempty]
      simp [BasicBuffer.spaceCellsFrom, hblocks, hpost_cells]
    · rfl
  rw [hstart, hfrom, BasicBuffer.spaceCells, hl.dataSize_eq, BasicBuffer.cells, hblocks]
  simp only [List.flatMap_append, List.flatMap_cons, List.map_append, List.map_cons,
    List.sum_append, List.sum_cons, sum_len_eq_zero hpost, Nat.add_zero]
  rw [← length_flatMap_cells_of_full hpre, List.drop_append, List.drop_append,
    List.drop_eq_nil_of_le (by omega), Nat.add_sub_cancel_left, List.nil_append,
    Nat.sub_eq_zero_of_le (by simp; omega), List.drop_zero, Block.spaceCells]

/-- A fresh block at the tail keeps the layout: it is empty, and its address
is new. -/
theorem appendNewBlock (hcap : 0 < capacity) : Layout capacity bb.appendNewBlock where
  offset_lt b hb := by
    simp only [BasicBuffer.appendNewBlock_blocks, List.mem_append, List.mem_singleton] at hb
    rcases hb with hb | rfl
    · exact hl.offset_lt b hb
    · exact hcap
  bounded b hb := by
    simp only [BasicBuffer.appendNewBlock_blocks, List.mem_append, List.mem_singleton] at hb
    rcases hb with hb | rfl
    · exact hl.bounded b hb
    · simp
  offset_tail b hb := by
    rw [BasicBuffer.appendNewBlock_blocks, List.tail_append] at hb
    split at hb
    · simp at hb
    · simp only [List.mem_append, List.mem_singleton] at hb
      rcases hb with hb | rfl
      · exact hl.offset_tail b hb
      · rfl
  ids_nodup := by
    rw [BasicBuffer.appendNewBlock_blocks, List.map_append, List.nodup_append]
    refine ⟨hl.ids_nodup, List.nodup_singleton _, ?_⟩
    intro a ha c hc
    simp only [List.map_cons, List.map_nil, List.mem_singleton] at hc
    obtain ⟨b, hb, rfl⟩ := List.mem_map.mp ha
    rw [hc]
    exact Nat.ne_of_lt (hl.ids_lt b hb)
  ids_lt b hb := by
    rw [BasicBuffer.appendNewBlock_nextId]
    simp only [BasicBuffer.appendNewBlock_blocks, List.mem_append, List.mem_singleton] at hb
    rcases hb with hb | rfl
    · exact Nat.lt_succ_of_lt (hl.ids_lt b hb)
    · simp
  split := by
    right
    rw [BasicBuffer.appendNewBlock_endId, BasicBuffer.appendNewBlock_blocks]
    rcases hl.split with ⟨hnil, -⟩ | ⟨pre, e, post, hblocks, hend, hpre, hpost⟩
    · exact ⟨[], ⟨bb.nextId, 0, 0⟩, [], by simp [hnil], by simp [hnil], by simp, by simp⟩
    · refine ⟨pre, e, post ++ [⟨bb.nextId, 0, 0⟩], by simp [hblocks], by simp [hblocks, hend],
        hpre, ?_⟩
      simp only [List.mem_append, List.mem_singleton]
      rintro b (hb | rfl)
      · exact hpost b hb
      · rfl
  blockCnt_eq := by simp [hl.blockCnt_eq]
  dataSize_eq := by simp [hl.dataSize_eq]

end Layout

theorem Layout.appendNewBlock_iterate (hcap : 0 < capacity) {bb : BasicBuffer}
    (hl : Layout capacity bb) (m : Nat) : Layout capacity (BasicBuffer.appendNewBlock^[m] bb) := by
  induction m with
  | zero => exact hl
  | succ m ih =>
      rw [Function.iterate_succ_apply']
      exact ih.appendNewBlock hcap

end Layout

end ControlPlane.Proxy
