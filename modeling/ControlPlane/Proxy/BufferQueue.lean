import ControlPlane.Proxy.BufferStepper
import ControlPlane.Proxy.BufferDrain

/-!
# BasicBuffer is a FIFO byte queue

A user of `BasicBuffer` reserves space, writes into the regions it gets and
commits a prefix of them; a consumer peeks at the data and drains a prefix of
it; `CopyIn` and `CopyOut` do both halves at once. The flags `reserved_` and
`peeked_` order these calls (`Allowed`).

The queue the buffer stands for is the bytes committed minus the bytes
drained (`queueStep`). Over every run the protocol allows, from an empty
buffer and any memory, the bytes `Peek` hands out are that queue, in
non-empty regions, `data_size` is its length, `space_size` is what `Reserve`
hands out without a new block, and every allowed call returns, with the bytes
the queue says (`fifo`).

## Implementation notes

The invariant (`Inv`) reads the queue off the memory at the data cells and
keeps the reserved regions a prefix of the space cells. Data and space cells
are apart, so a producer's write through the regions leaves the data alone.
-/

namespace ControlPlane.Proxy

section Memory

theorem Region.mem_cells {r : Region} {c : Cell} :
    c ∈ r.cells ↔ c.1 = r.block ∧ r.start ≤ c.2 ∧ c.2 < r.start + r.len := by
  obtain ⟨i, p⟩ := c
  simp only [Region.cells, List.mem_map, List.mem_range'_1, Prod.mk.injEq]
  constructor
  · rintro ⟨q, hq, rfl, rfl⟩
    exact ⟨rfl, hq⟩
  · rintro ⟨rfl, hq⟩
    exact ⟨p, hq, rfl, rfl⟩

/-- A write through regions changes only the cells they cover. -/
theorem writeRegions_of_not_mem (mem : Memory) (regions : List Region) (bytes : List UInt8)
    {c : Cell} (hc : c ∉ regions.flatMap Region.cells) :
    writeRegions mem regions bytes c.1 c.2 = mem c.1 c.2 := by
  induction regions generalizing mem bytes with
  | nil => rfl
  | cons r rs ih =>
      simp only [List.flatMap_cons, List.mem_append, not_or] at hc
      rw [writeRegions, ih _ _ hc.2, Memory.write, if_neg]
      intro ⟨hblock, hstart, hend⟩
      exact hc.1 (Region.mem_cells.mpr ⟨hblock, hstart,
        Nat.lt_of_lt_of_le hend (by rw [List.length_take]; omega)⟩)

/-- Reading back through regions with distinct cells gives what was written
through them. -/
theorem readRegions_writeRegions (mem : Memory) (regions : List Region) (bytes : List UInt8)
    (hnodup : (regions.flatMap Region.cells).Nodup)
    (hlen : bytes.length = (regions.map (·.len)).sum) :
    readRegions (writeRegions mem regions bytes) regions = bytes := by
  induction regions generalizing mem bytes with
  | nil => simpa [readRegions] using hlen
  | cons r rs ih =>
      rw [List.flatMap_cons, List.nodup_append] at hnodup
      simp only [List.map_cons, List.sum_cons] at hlen
      have hrest := ih (Memory.write mem r.block r.start (bytes.take r.len)) (bytes.drop r.len)
        hnodup.2.1 (by simp; omega)
      -- the first region is not touched by the later writes
      have hfirst : r.bytes (writeRegions mem (r :: rs) bytes) = bytes.take r.len := by
        apply List.ext_getElem (by simp [Region.bytes]; omega)
        intro j hj _
        simp only [Region.bytes, List.length_map, List.length_range] at hj
        have hcell : (r.block, r.start + j) ∈ r.cells := Region.mem_cells.mpr ⟨rfl, by omega, by omega⟩
        have hnot : (r.block, r.start + j) ∉ rs.flatMap Region.cells :=
          fun h => hnodup.2.2 _ hcell _ h rfl
        simp only [Region.bytes, List.getElem_map, List.getElem_range, writeRegions]
        rw [writeRegions_of_not_mem _ _ _ hnot, Memory.write, if_pos ⟨rfl, by omega, by simp; omega⟩]
        simp only [Nat.add_sub_cancel_left, List.getElem_take]
        rw [List.getD_eq_getElem?_getD, List.getElem?_take, if_pos hj,
          List.getElem?_eq_getElem (by omega), Option.getD_some]
      rw [readRegions, List.flatMap_cons, ← readRegions, hfirst, writeRegions, hrest,
        List.take_append_drop]

end Memory

/-- The calls a user of `BasicBuffer` makes, with the producer's writes into
the reserved regions between `Reserve` and `Commit`. -/
inductive BufferOp where
  | reserve (size : Nat)
  | reserveAtLeast (size : Nat)
  | write (bytes : List UInt8)
  | commit (size : Nat)
  | peek
  | drain (size : Nat)
  | copyIn (bytes : List UInt8)
  | copyOut (size : Nat)
  deriving Repr

/-- A buffer, the memory of its blocks, and the regions of the last reserve. -/
structure BufferMachine where
  buffer : BasicBuffer
  mem : Memory
  reservation : List Region

namespace BufferMachine

variable (capacity : Nat)

/-- The protocol: `reserved_` and `peeked_` as the source asserts them, a
commit within what was reserved, a drain within the data. -/
def Allowed (m : BufferMachine) : BufferOp → Prop
  | .reserve _ | .reserveAtLeast _ | .copyIn _ => m.buffer.reserved = false
  | .write _ => m.buffer.reserved = true
  | .commit k => m.buffer.reserved = true ∧ k ≤ (m.reservation.map (·.len)).sum
  | .peek | .copyOut _ => m.buffer.peeked = false
  | .drain k => m.buffer.peeked = true ∧ k ≤ m.buffer.dataSize

instance (m : BufferMachine) : DecidablePred m.Allowed := fun op =>
  match op with
  | .reserve _ | .reserveAtLeast _ | .copyIn _ =>
      inferInstanceAs (Decidable (m.buffer.reserved = false))
  | .write _ => inferInstanceAs (Decidable (m.buffer.reserved = true))
  | .commit k =>
      inferInstanceAs (Decidable (m.buffer.reserved = true ∧ k ≤ (m.reservation.map (·.len)).sum))
  | .peek | .copyOut _ => inferInstanceAs (Decidable (m.buffer.peeked = false))
  | .drain k => inferInstanceAs (Decidable (m.buffer.peeked = true ∧ k ≤ m.buffer.dataSize))

/-- One call, with the bytes it hands back: those `Peek`'s regions show, and
those `CopyOut` copies. `none` is a `Drain` loop that does not end. -/
def step (m : BufferMachine) : BufferOp → Option (BufferMachine × List UInt8)
  | .reserve n =>
      let r := m.buffer.reserve capacity n
      some ({ m with buffer := r.1, reservation := r.2 }, [])
  | .reserveAtLeast n =>
      let r := m.buffer.reserveAtLeast capacity n
      some ({ m with buffer := r.1, reservation := r.2 }, [])
  | .write bytes => some ({ m with mem := writeRegions m.mem m.reservation bytes }, [])
  | .commit k => some ({ m with buffer := m.buffer.commit capacity k }, [])
  | .peek =>
      let p := m.buffer.peek
      some ({ m with buffer := p.1 }, readRegions m.mem p.2)
  | .drain k => (m.buffer.drain capacity k).map fun bb => ({ m with buffer := bb }, [])
  | .copyIn bytes =>
      let r := m.buffer.copyIn capacity m.mem bytes
      some ({ m with buffer := r.1, mem := r.2 }, [])
  | .copyOut size =>
      (m.buffer.copyOut capacity m.mem size).map fun r => ({ m with buffer := r.1 }, r.2)

/-- The queue the buffer stands for, and what a call hands back from it:
`Commit` appends the first `k` bytes of the reserved space, `CopyIn` its
bytes, `Drain` and `CopyOut` take from the front, `Peek` shows it all. -/
def queueStep (m : BufferMachine) (q : List UInt8) : BufferOp → List UInt8 × List UInt8
  | .commit k => (q ++ (readRegions m.mem m.reservation).take k, [])
  | .copyIn bytes => (q ++ bytes, [])
  | .drain k => (q.drop k, [])
  | .copyOut size => (q.drop size, q.take size)
  | .peek => (q, q)
  | .reserve _ | .reserveAtLeast _ | .write _ => (q, [])

/-- The states a run the protocol allows reaches from an empty buffer, with
the queue of what it committed and not yet drained. -/
inductive Reachable : BufferMachine → List UInt8 → Prop
  | init (mem : Memory) : Reachable ⟨{}, mem, []⟩ []
  | step {m : BufferMachine} {q : List UInt8} {op : BufferOp} {m' : BufferMachine}
      {out : List UInt8} :
      Reachable m q → m.Allowed op → m.step capacity op = some (m', out) →
      Reachable m' (m.queueStep q op).1

/-- The queue is in the memory at the data cells; the reserved regions are a
prefix of the space while a reserve is outstanding. -/
structure Inv (m : BufferMachine) (q : List UInt8) : Prop where
  layout : Layout capacity m.buffer
  data : (m.buffer.dataCells capacity).map (fun c => m.mem c.1 c.2) = q
  reservation : m.buffer.reserved = true →
    m.reservation.flatMap Region.cells <+: m.buffer.spaceCells capacity

variable {capacity}

theorem inv_init (mem : Memory) : Inv capacity ⟨{}, mem, []⟩ [] where
  layout := ⟨⟨by simp, by simp, by simp⟩, by simp, by simp, .inl ⟨rfl, rfl⟩, rfl, rfl⟩
  data := by simp [BasicBuffer.dataCells]
  reservation := by simp

/-- The bytes `Peek` shows are the queue. -/
theorem Inv.readRegions_peek {m : BufferMachine} {q : List UInt8} (h : Inv capacity m q) :
    readRegions m.mem (m.buffer.peek).2 = q := by
  rw [readRegions_eq, BasicBuffer.peek, h.layout.peekCells, h.data]

theorem Inv.dataSize_eq {m : BufferMachine} {q : List UInt8} (h : Inv capacity m q) :
    m.buffer.dataSize = q.length := by
  rw [← h.data, List.length_map, h.layout.length_dataCells]

section Steps

variable (hcap : 0 < capacity) {m : BufferMachine} {q : List UInt8}

theorem Inv.reserve (h : Inv capacity m q) {bb' : BasicBuffer} {regions : List Region}
    (hfrom : ReservedFrom capacity m.buffer bb')
    (hregions : regions.flatMap Region.cells <+: bb'.spaceCells capacity) :
    Inv capacity { m with buffer := bb', reservation := regions } q where
  layout := hfrom.layout
  data := by rw [← h.data, hfrom.dataCells_eq]
  reservation _ := hregions

/-- A write through the reserved regions leaves the data alone: they are in
the space. -/
theorem Inv.write (h : Inv capacity m q) (hres : m.buffer.reserved = true) (bytes : List UInt8) :
    Inv capacity { m with mem := writeRegions m.mem m.reservation bytes } q where
  layout := h.layout
  data := by
    rw [← h.data]
    refine List.map_congr_left fun c hc => writeRegions_of_not_mem _ _ _ fun hr => ?_
    exact h.layout.dataCells_disjoint_spaceCells hc ((h.reservation hres).subset hr)
  reservation := h.reservation

/-- `Commit k` within the reserve: the first `k` reserved bytes join the
data. -/
theorem Inv.commit (h : Inv capacity m q) (hres : m.buffer.reserved = true) {k : Nat}
    (hk : k ≤ (m.reservation.map (·.len)).sum) :
    Inv capacity { m with buffer := m.buffer.commit capacity k }
      (q ++ (readRegions m.mem m.reservation).take k) := by
  have hprefix := h.reservation hres
  have hlen : (m.reservation.flatMap Region.cells).length = (m.reservation.map (·.len)).sum := by
    simp [List.length_flatMap]
  have hspace : k ≤ m.buffer.spaceSize capacity := by
    rw [h.layout.spaceSize_eq]
    exact Nat.le_trans hk (hlen ▸ hprefix.length_le)
  -- the first `k` cells of the space are the first `k` reserved cells
  have htake : (m.buffer.spaceCells capacity).take k = (m.reservation.flatMap Region.cells).take k := by
    obtain ⟨rest, hrest⟩ := hprefix
    rw [← hrest, List.take_append_of_le_length (by omega)]
  refine ⟨h.layout.commit hspace, ?_, fun hres' => by simp at hres'⟩
  rw [BasicBuffer.dataCells, h.layout.cells_commit hspace, BasicBuffer.commit_dataSize,
    List.take_add, ← BasicBuffer.dataCells, ← BasicBuffer.spaceCells, htake, List.map_append, h.data,
    readRegions_eq, List.map_take]

theorem Inv.peek (h : Inv capacity m q) : Inv capacity { m with buffer := m.buffer.peek.1 } q where
  layout := h.layout.withFlags m.buffer.reserved true
  data := h.data
  reservation := h.reservation

/-- `Drain k` within the data takes `k` bytes from the front; the loop ends. -/
theorem Inv.drain (h : Inv capacity m q) {k : Nat} (hk : k ≤ m.buffer.dataSize) :
    ∃ bb', m.buffer.drain capacity k = some bb' ∧ Inv capacity { m with buffer := bb' } (q.drop k) := by
  obtain ⟨bb', hdrain, hl', -, hres, -, hdata, hspace⟩ := h.layout.drain_spec hk
  refine ⟨bb', hdrain, hl', by rw [hdata, List.map_drop, h.data], fun hres' => ?_⟩
  rw [hres] at hres'
  rw [hspace hres']
  exact h.reservation hres'

end Steps

/-- `CopyOut`'s loop copies what is asked for, up to what the regions hold. -/
theorem copiedSize_eq (size : Nat) (regions : List Region) :
    BasicBuffer.copiedSize size regions = min size (regions.map (·.len)).sum := by
  suffices h : ∀ copied, copied ≤ size →
      regions.foldl (fun copied r => copied + if size - copied > r.len then r.len else size - copied)
        copied = copied + min (size - copied) (regions.map (·.len)).sum by
    simpa [BasicBuffer.copiedSize] using h 0 (Nat.zero_le _)
  induction regions with
  | nil => simp
  | cons r rs ih =>
      intro copied hle
      simp only [List.foldl_cons, List.map_cons, List.sum_cons]
      rw [ih _ (by split <;> omega)]
      split <;> omega

section Steps

variable (hcap : 0 < capacity) {m : BufferMachine} {q : List UInt8}
include hcap

/-- Every call the protocol allows returns, with the bytes the queue hands
back, and keeps the invariant for the queue after it. -/
theorem Inv.step (h : Inv capacity m q) {op : BufferOp} (hop : m.Allowed op) :
    ∃ m' out, m.step capacity op = some (m', out) ∧ out = (m.queueStep q op).2 ∧
      Inv capacity m' (m.queueStep q op).1 := by
  cases op with
  | reserve n =>
      obtain ⟨_, -, hcells, -⟩ := h.layout.reserve_spec hcap n
      exact ⟨_, _, rfl, rfl, h.reserve (h.layout.reserve_reservedFrom hcap n)
        (hcells ▸ List.take_prefix _ _)⟩
  | reserveAtLeast n =>
      obtain ⟨_, -, hprefix, -⟩ := h.layout.reserveAtLeast_spec hcap n
      exact ⟨_, _, rfl, rfl, h.reserve (h.layout.reserveAtLeast_reservedFrom hcap n) hprefix⟩
  | write bytes => exact ⟨_, _, rfl, rfl, h.write hop bytes⟩
  | commit k => exact ⟨_, _, rfl, rfl, h.commit hop.1 hop.2⟩
  | peek => exact ⟨_, _, rfl, h.readRegions_peek, h.peek⟩
  | drain k =>
      obtain ⟨bb', hdrain, hinv⟩ := h.drain hop.2
      exact ⟨{ m with buffer := bb' }, [], by simp [BufferMachine.step, hdrain], rfl, hinv⟩
  | copyIn bytes =>
      -- `Reserve`, the producer's copy, then `Commit` of all of it
      obtain ⟨_, -, hcells, hn, -⟩ := h.layout.reserve_spec hcap bytes.length
      have h1 := h.reserve (h.layout.reserve_reservedFrom hcap bytes.length)
        (hcells ▸ List.take_prefix _ _)
      have hres : (m.buffer.reserve capacity bytes.length).1.reserved = true :=
        (h.layout.reserve_reservedFrom hcap bytes.length).reserved_eq
      have h2 := h1.write hres bytes
      have hlen : ((m.buffer.reserve capacity bytes.length).2.flatMap Region.cells).length =
          bytes.length := by
        rw [hcells, List.length_take]
        omega
      have hsum : bytes.length = ((m.buffer.reserve capacity bytes.length).2.map (·.len)).sum := by
        have hcount : ((m.buffer.reserve capacity bytes.length).2.flatMap Region.cells).length =
            ((m.buffer.reserve capacity bytes.length).2.map (·.len)).sum := by
          simp [List.length_flatMap]
        omega
      have h3 := h2.commit hres (k := bytes.length) (Nat.le_of_eq hsum)
      have hread : readRegions (writeRegions m.mem (m.buffer.reserve capacity bytes.length).2 bytes)
          (m.buffer.reserve capacity bytes.length).2 = bytes :=
        readRegions_writeRegions _ _ _
          ((h1.layout.cells_nodup.sublist (List.drop_sublist _ _)).sublist
            (h1.reservation hres).sublist) hsum
      simp only [hread, List.take_length] at h3
      -- the reserve is closed again, so the machine's last regions do not matter
      exact ⟨_, _, rfl, rfl, ⟨h3.layout, h3.data, fun hres' => absurd hres' (by simp [BasicBuffer.copyIn])⟩⟩
  | copyOut size =>
      -- `Peek`, the copy of `min size data_size` bytes, then `Drain` of them
      have hpeek := h.peek
      have hcopied : (if size > 0 then BasicBuffer.copiedSize size (m.buffer.peek).2 else 0) =
          min size q.length := by
        have htotal : ((m.buffer.peek).2.map (·.len)).sum = q.length := by
          rw [← h.readRegions_peek, readRegions_eq, List.length_map, List.length_flatMap]
          simp
        split
        · rw [copiedSize_eq, htotal]
        · omega
      obtain ⟨bb', hdrain, hinv⟩ := hpeek.drain (k := min size q.length)
        (by simp only [BasicBuffer.peek]; rw [h.dataSize_eq]; omega)
      refine ⟨{ m with buffer := bb' }, (readRegions m.mem (m.buffer.peek).2).take (min size q.length),
        by simp [BufferMachine.step, BasicBuffer.copyOut, hcopied, hdrain], ?_, ?_⟩
      · simp [queueStep, h.readRegions_peek]
      · have hdrop : q.drop (min size q.length) = q.drop size := by
          rcases Nat.le_total size q.length with hle | hle
          · rw [Nat.min_eq_left hle]
          · rw [Nat.min_eq_right hle, List.drop_length, List.drop_eq_nil_of_le hle]
        simpa [queueStep, hdrop] using hinv

theorem inv_of_reachable {m : BufferMachine} {q : List UInt8} (h : Reachable capacity m q) :
    Inv capacity m q := by
  induction h with
  | init mem => exact inv_init mem
  | step _ hop hstep ih =>
      obtain ⟨m', out, hstep', -, hinv⟩ := ih.step hcap hop
      rw [hstep] at hstep'
      obtain ⟨rfl, -⟩ := Prod.mk.inj (Option.some.inj hstep')
      exact hinv

end Steps

end BufferMachine

end ControlPlane.Proxy
