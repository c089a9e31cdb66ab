import Mathlib

/-!
# BasicBuffer: a byte queue over a list of blocks

`BasicBuffer<BlockSize>` (src/cc/aws/proxy/src/buffer.h) keeps its bytes in a
singly linked list of blocks of one size. Data is appended at the back through
`Reserve` (or `ReserveAtLeast`) and `Commit`, and consumed at the front through
`Peek` and `Drain`; `CopyIn` and `CopyOut` do both steps at once.

## Implementation notes

A block is its address `id` and the `offset` and `len` of its data; its
`capacity` bytes are in `Memory`, by address and position, so a block taken
from the freelist holds whatever was there before. The list runs from `head_`
to `tail_`; `end_` is the address of the last data block. New blocks get
fresh addresses from `nextId`. The scatter-gather buffers that `Reserve` and
`Peek` hand out are regions: an address, a start and a length.

`SpaceStepper` is a position in the block list; the position past the tail is
its null state, where `Next` appends a block. The `Reserve` and `Commit` loops
run on a fuel that covers every block they can visit
(`reserveFuel`).
-/

namespace ControlPlane.Proxy

/-- `BasicBuffer::Block`: its address and the start and length of its data. -/
structure Block where
  id : Nat
  offset : Nat
  len : Nat
  deriving DecidableEq, Repr, Inhabited

/-- The bytes of every block, by address and position. -/
abbrev Memory := Nat → Nat → UInt8

/-- A scatter-gather buffer: `len` bytes of the block at address `block`, from
`start`. -/
structure Region where
  block : Nat
  start : Nat
  len : Nat
  deriving DecidableEq, Repr

section Memory

/-- The bytes a region covers. -/
def Region.bytes (mem : Memory) (r : Region) : List UInt8 :=
  (List.range r.len).map fun j => mem r.block (r.start + j)

def readRegions (mem : Memory) (regions : List Region) : List UInt8 :=
  regions.flatMap (Region.bytes mem)

/-- `memcpy` of `bytes` to position `start` of the block at `id`. -/
def Memory.write (mem : Memory) (id start : Nat) (bytes : List UInt8) : Memory :=
  fun i p => if i = id ∧ start ≤ p ∧ p < start + bytes.length then bytes.getD (p - start) 0
    else mem i p

/-- A producer's write through the regions, in order (`memcpy`, `readv`). -/
def writeRegions (mem : Memory) : List Region → List UInt8 → Memory
  | [], _ => mem
  | r :: rs, bytes =>
      writeRegions (Memory.write mem r.block r.start (bytes.take r.len)) rs (bytes.drop r.len)

end Memory

section Blocks

variable (capacity : Nat)

namespace Block

def dataLen (b : Block) : Nat := b.len

def spaceHead (b : Block) : Nat := b.offset + b.len

def spaceLen (b : Block) : Nat := capacity - b.offset - b.len

/-- `Block::Commit`: extend the data into the space; returns what is left to
commit. -/
def commit (b : Block) (size : Nat) : Block × Nat :=
  let toCommit := if size < b.spaceLen capacity then size else b.spaceLen capacity
  ({ b with len := b.len + toCommit }, size - toCommit)

/-- `Block::Drain`: consume from the front of the data; returns what is left to
drain. -/
def drain (b : Block) (size : Nat) : Block × Nat :=
  let toDrain := if b.dataLen < size then b.dataLen else size
  ({ b with offset := b.offset + toDrain, len := b.len - toDrain }, size - toDrain)

end Block

/-- `BasicBuffer<BlockSize>`: the block list from `head_` to `tail_`, `end_`,
the counters and the two protocol flags. -/
structure BasicBuffer where
  blocks : List Block := []
  endId : Option Nat := none
  blockCnt : Nat := 0
  dataSize : Nat := 0
  reserved : Bool := false
  peeked : Bool := false
  nextId : Nat := 0
  deriving Repr

namespace BasicBuffer

/-- `space_size`: the space behind the data, counted from the head block. -/
def spaceSize (bb : BasicBuffer) : Nat :=
  match bb.blocks.head? with
  | none => 0
  | some head => bb.blockCnt * capacity - bb.dataSize - head.offset

def blockAt (bb : BasicBuffer) (i : Nat) : Block := bb.blocks.getD i default

/-- The position of `end_` in the list. -/
def endIndex (bb : BasicBuffer) : Option Nat :=
  bb.endId.bind fun id => bb.blocks.findIdx? (·.id == id)

/-- `AppendNewBlock()`: a new block at the tail; the first block is also
`head_` and `end_`. -/
def appendNewBlock (bb : BasicBuffer) : BasicBuffer :=
  let block : Block := ⟨bb.nextId, 0, 0⟩
  match bb.blocks with
  | [] =>
      { bb with
        blocks := [block]
        endId := some block.id
        blockCnt := bb.blockCnt + 1
        nextId := bb.nextId + 1 }
  | _ =>
      { bb with
        blocks := bb.blocks ++ [block]
        blockCnt := bb.blockCnt + 1
        nextId := bb.nextId + 1 }

/-- The `SpaceStepper` constructor: `end_`, or the block after it when `end_`
has no space left. -/
def stepperStart (bb : BasicBuffer) : Nat :=
  match bb.endIndex with
  | none => bb.blocks.length
  | some e => if (bb.blockAt e).spaceLen capacity = 0 then e + 1 else e

/-- `SpaceStepper::Next` at position `i`: past the tail, a new block first. -/
def stepperNext (bb : BasicBuffer) (i : Nat) : BasicBuffer :=
  if i < bb.blocks.length then bb else bb.appendNewBlock

/-- The loop of `Reserve`: the space of each block the stepper visits, until
`remaining` is covered. -/
def reserveLoop : Nat → BasicBuffer → Nat → Nat → BasicBuffer × List Region
  | 0, bb, _, _ => (bb, [])
  | fuel + 1, bb, i, remaining =>
      if remaining = 0 then (bb, [])
      else
        let bb := bb.stepperNext i
        let block := bb.blockAt i
        let spaceLen :=
          if remaining ≥ block.spaceLen capacity then block.spaceLen capacity else remaining
        let rest := reserveLoop fuel bb (i + 1) (remaining - spaceLen)
        (rest.1, ⟨block.id, block.spaceHead, spaceLen⟩ :: rest.2)

/-- The loop of `ReserveAtLeast`: whole spaces, until they reach `size`. -/
def reserveAtLeastLoop : Nat → BasicBuffer → Nat → Nat → Nat → BasicBuffer × List Region
  | 0, bb, _, _, _ => (bb, [])
  | fuel + 1, bb, i, reservedSize, size =>
      if reservedSize < size then
        let bb := bb.stepperNext i
        let block := bb.blockAt i
        let rest := reserveAtLeastLoop fuel bb (i + 1) (reservedSize + block.spaceLen capacity) size
        (rest.1, ⟨block.id, block.spaceHead, block.spaceLen capacity⟩ :: rest.2)
      else (bb, [])

/-- The loop of `Commit`: each block the stepper visits becomes `end_` and
takes what it can. -/
def commitLoop : Nat → BasicBuffer → Nat → Nat → BasicBuffer
  | 0, bb, _, _ => bb
  | fuel + 1, bb, i, remaining =>
      if remaining = 0 then bb
      else
        let bb := bb.stepperNext i
        let committed := (bb.blockAt i).commit capacity remaining
        commitLoop fuel
          { bb with blocks := bb.blocks.set i committed.1, endId := some committed.1.id }
          (i + 1) committed.2

/-- Enough rounds for a loop over `size` bytes: every block it can visit. -/
def reserveFuel (bb : BasicBuffer) (size : Nat) : Nat := bb.blocks.length + size + 1

def reserve (bb : BasicBuffer) (size : Nat) : BasicBuffer × List Region :=
  reserveLoop capacity (bb.reserveFuel size) { bb with reserved := true }
    (bb.stepperStart capacity) size

/-- `ReserveAtLeast`; the regions' total is the size it reports back. -/
def reserveAtLeast (bb : BasicBuffer) (size : Nat) : BasicBuffer × List Region :=
  reserveAtLeastLoop capacity (bb.reserveFuel size) { bb with reserved := true }
    (bb.stepperStart capacity) 0 size

def commit (bb : BasicBuffer) (size : Nat) : BasicBuffer :=
  let bb' := commitLoop capacity (bb.reserveFuel size) bb (bb.stepperStart capacity) size
  { bb' with dataSize := bb.dataSize + size, reserved := false }

/-- The regions `Peek` returns: from the head, while a block has data. -/
def peekRegions : List Block → List Region
  | [] => []
  | b :: bs => if b.dataLen > 0 then ⟨b.id, b.offset, b.dataLen⟩ :: peekRegions bs else []

def peek (bb : BasicBuffer) : BasicBuffer × List Region :=
  ({ bb with peeked := true }, peekRegions bb.blocks)

/-- The loop of `Drain` over the head block, pruning it once it has neither
data nor space; with the number of blocks pruned. `none` is a loop that does
not end: the head kept with bytes still to drain, or no head at all. -/
def drainBlocks : List Block → Nat → Option (List Block × Nat)
  | blocks, 0 => some (blocks, 0)
  | [], _ + 1 => none
  | head :: rest, remaining + 1 =>
      let drained := head.drain (remaining + 1)
      if drained.1.dataLen = 0 ∧ drained.1.spaceLen capacity = 0 then
        (drainBlocks rest drained.2).map fun r => (r.1, r.2 + 1)
      else if drained.2 = 0 then some (drained.1 :: rest, 0)
      else none

/-- `Drain`: after the loop, `end_` returns to the head once the data is gone,
and the head's offset is reset when no reserve is outstanding. -/
def drain (bb : BasicBuffer) (size : Nat) : Option BasicBuffer :=
  (drainBlocks capacity bb.blocks size).map fun r =>
    let bb := { bb with
      blocks := r.1
      blockCnt := bb.blockCnt - r.2
      dataSize := bb.dataSize - size
      peeked := false }
    let bb := if bb.dataSize = 0 then { bb with endId := bb.blocks.head?.map (·.id) } else bb
    if bb.dataSize = 0 && !bb.reserved then
      match bb.blocks with
      | head :: rest => { bb with blocks := { head with offset := 0 } :: rest }
      | [] => bb
    else bb

def copyIn (bb : BasicBuffer) (mem : Memory) (bytes : List UInt8) : BasicBuffer × Memory :=
  let reserved := bb.reserve capacity bytes.length
  (reserved.1.commit capacity bytes.length, writeRegions mem reserved.2 bytes)

/-- How many bytes `CopyOut`'s loop copies out of the peeked regions. -/
def copiedSize (size : Nat) (regions : List Region) : Nat :=
  regions.foldl (fun copied r => copied + if size - copied > r.len then r.len else size - copied) 0

/-- `CopyOut`: the bytes copied, with the buffer after it drains them. -/
def copyOut (bb : BasicBuffer) (mem : Memory) (size : Nat) :
    Option (BasicBuffer × List UInt8) :=
  let peeked := bb.peek
  let copied := if size > 0 then copiedSize size peeked.2 else 0
  (peeked.1.drain capacity copied).map fun bb' => (bb', (readRegions mem peeked.2).take copied)

end BasicBuffer

end Blocks

end ControlPlane.Proxy
