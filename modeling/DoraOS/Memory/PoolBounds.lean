import DoraOS.Memory.Balance
import DoraOS.Memory.Pool

/-! The room of a pool. `dos_memp_create` asks the heap for a size that is cut to
32 bits, and lays out as many nodes as the uncut size has room for. -/
namespace DoraOS

open ByteWords Transition

def mempVisited (blkSize : Nat) : Nat → Nat → List Nat
  | 0, node => [node]
  | i + 1, node => node :: mempVisited blkSize i ((node + sizeofMempNode + blkSize) % 2 ^ 32)

/-- A pool in the block of `size` bytes at `block`: its nodes and the blocks behind
them are inside, no byte outside is written, and what it hands out later are
the blocks behind its nodes. -/
structure PoolInside (mem : Memory) (block size mempSize blkSize : Nat) : Prop where
  nodes : ∀ node ∈ mempVisited blkSize (mempSize / blkSize - 1) ((block + sizeofMemp) % 2 ^ 32),
    block ≤ node ∧ node + sizeofMempNode + blkSize ≤ block + size
  writes : ∀ x, x < block ∨ block + size ≤ x →
    (mem.dosMempCreate block mempSize blkSize).1 x = mem x
  issued : ∀ events r, Runs (poolStep block blkSize)
    (PoolRun.start (mem.dosMempCreate block mempSize blkSize).1) events r → ∀ ptr ∈ r.issued,
    ∃ node ∈ mempVisited blkSize (mempSize / blkSize - 1) ((block + sizeofMemp) % 2 ^ 32),
      ptr = node + sizeofMempNode

section Visited

variable {mem : Memory} {blkSize memp node block size i x : Nat}

theorem mem_visited_self : node ∈ mempVisited blkSize i node := by
  cases i with
  | zero => exact List.mem_singleton_self node
  | succ i => exact List.mem_cons_self

/-- Addresses that do not wrap. -/
theorem visited_eq (hFits : node + (i + 1) * (sizeofMempNode + blkSize) ≤ 2 ^ 32) :
    mempVisited blkSize i node = List.range' node (i + 1) (sizeofMempNode + blkSize) := by
  induction i generalizing node with
  | zero => rfl
  | succ i ih =>
      obtain ⟨hLt, hRest⟩ := fits_succ hFits
      rw [mempVisited, Nat.mod_eq_of_lt hLt, ih hRest, List.range'_succ (n := i + 1), Nat.add_assoc]

/-- Nodes that are inside of a block do not wrap, so all of them fit one behind
the other. -/
theorem room_of_inside (hBlock : 0 < block) (hSpace : block + size ≤ 2 ^ 32)
    (hInside : ∀ x ∈ mempVisited blkSize i node,
      block ≤ x ∧ x + sizeofMempNode + blkSize ≤ block + size) :
    node + (i + 1) * (sizeofMempNode + blkSize) ≤ block + size := by
  induction i generalizing node with
  | zero =>
      have hNode := hInside node mem_visited_self
      omega
  | succ i ih =>
      obtain ⟨hNode, hRest⟩ := List.forall_mem_cons.mp hInside
      have hNext := hRest _ mem_visited_self
      have hLt : node + sizeofMempNode + blkSize < 2 ^ 32 := by
        by_contra hWraps
        have hEq : node + sizeofMempNode + blkSize = 2 ^ 32 := by omega
        rw [hEq, Nat.mod_self] at hNext
        omega
      rw [Nat.mod_eq_of_lt hLt] at hRest
      have hRoom := ih hRest
      rw [Nat.succ_mul]
      omega

/-- The loop writes to the nodes it visits. -/
theorem linkMempNodes_outside
    (hOut : ∀ y ∈ mempVisited blkSize i node, x < y + 4 ∨ y + sizeofMempNode ≤ x) :
    mem.linkMempNodes memp blkSize i node x = mem x := by
  have hRound (mem : Memory) (node v : Nat) (h : x < node + 4 ∨ node + sizeofMempNode ≤ x) :
      ((mem.setNext node v).setDosMemp node memp) x = mem x := by
    have hSize : sizeofMempNode = 12 := rfl
    exact (store_outside (by omega)).trans (store_outside (by omega))
  induction i generalizing mem node with
  | zero => exact hRound mem node 0 (hOut node mem_visited_self)
  | succ i ih =>
      obtain ⟨hNode, hRest⟩ := List.forall_mem_cons.mp hOut
      rw [Memory.linkMempNodes, ih hRest, hRound mem node _ hNode]

end Visited

section Create

variable {mem : Memory} {block size mempSize blkSize x : Nat}

theorem dosMempCreate_eq (hBlk : blkSize ≠ 0) (hOrder : blkSize ≤ mempSize) (hBlock : block ≠ 0) :
    mem.dosMempCreate block mempSize blkSize = (mem.initMemp block ((block + sizeofMemp) % 2 ^ 32)
      mempSize (mempSize / blkSize) blkSize, block) := by
  rw [Memory.dosMempCreate, if_neg (by omega), if_neg hBlock]

/-- The structure of the pool and its nodes are all that is written. -/
theorem initMemp_outside {memp base mempCnt : Nat} (hBase : memp + sizeofMemp = base)
    (hOut : x < memp ∨ base ≤ x)
    (hNodes : ∀ y ∈ mempVisited blkSize (mempCnt - 1) base, x < y + 4 ∨ y + sizeofMempNode ≤ x) :
    mem.initMemp memp base mempSize mempCnt blkSize x = mem x := by
  have hSize : sizeofMemp = 28 := rfl
  have hNode : sizeofMempNode = 12 := rfl
  have hFirst := hNodes base mem_visited_self
  refine (linkMempNodes_outside hNodes).trans ?_
  refine (store_outside (show x < mempFree memp + 8 ∨ mempFree memp + 8 + 4 ≤ x by
    rw [mempFree]; omega)).trans ?_
  refine (store_outside (show x < base + 4 ∨ base + 4 + 4 ≤ x by omega)).trans ?_
  refine (store_outside (show x < memp + 8 ∨ memp + 8 + 4 ≤ x by omega)).trans ?_
  refine (store_outside (show x < memp + 4 ∨ memp + 4 + 4 ≤ x by omega)).trans ?_
  refine (store_outside (show x < memp ∨ memp + 4 ≤ x by omega)).trans ?_
  exact store_outside (show x < memp + 12 ∨ memp + 12 + 4 ≤ x by omega)

/-- The request that is not cut has room for the nodes and their blocks. -/
theorem room_of_bytes (mempSize blkSize : Nat) :
    sizeofMemp + mempSize / blkSize * (sizeofMempNode + blkSize) ≤
    mempBytes mempSize blkSize := by
  have hDiv := Nat.div_mul_le_self mempSize blkSize
  rw [mempBytes, Nat.mul_add, Nat.mul_comm sizeofMempNode]
  omega

/-- A request that is cut has not. -/
theorem no_room_of_overflow (hBlk : blkSize ≠ 0) (hOrder : blkSize ≤ mempSize)
    (hWord : mempSize < 2 ^ 32) (hOver : 2 ^ 32 ≤ mempBytes mempSize blkSize) :
    mempBytes mempSize blkSize % 2 ^ 32 <
      sizeofMemp + mempSize / blkSize * (sizeofMempNode + blkSize) := by
  have hRest := Nat.mod_lt mempSize (Nat.pos_of_ne_zero hBlk)
  have hSum := Nat.div_add_mod mempSize blkSize
  have hCut : mempBytes mempSize blkSize % 2 ^ 32 ≤ mempBytes mempSize blkSize - 2 ^ 32 := by omega
  rw [mempBytes] at hCut hOver ⊢
  rw [Nat.mul_add, Nat.mul_comm _ blkSize, Nat.mul_comm _ sizeofMempNode]
  omega

/-- A pool with room for its nodes is inside of its block. -/
theorem poolInside_of_room (mem : Memory) (hBlk : blkSize ≠ 0) (hOrder : blkSize ≤ mempSize)
    (hBlock : block ≠ 0) (hRoom : mempBytes mempSize blkSize ≤ size)
    (hSpace : block + size ≤ 2 ^ 32) : PoolInside mem block size mempSize blkSize := by
  have hBytes := room_of_bytes mempSize blkSize
  have hSize : sizeofMemp = 28 := rfl
  have hNode : sizeofMempNode = 12 := rfl
  have hPos : 0 < mempSize / blkSize := Nat.div_pos hOrder (Nat.pos_of_ne_zero hBlk)
  have hCnt : mempSize / blkSize - 1 + 1 = mempSize / blkSize := Nat.sub_add_cancel hPos
  have hRows : sizeofMempNode + blkSize ≤ mempSize / blkSize * (sizeofMempNode + blkSize) :=
    Nat.le_mul_of_pos_left _ hPos
  have hBase : (block + sizeofMemp) % 2 ^ 32 = block + sizeofMemp := Nat.mod_eq_of_lt (by omega)
  have hVisited : mempVisited blkSize (mempSize / blkSize - 1) (block + sizeofMemp) =
      mempNodes block (mempSize / blkSize) blkSize := by
    rw [visited_eq (by rw [hCnt]; omega), hCnt, mempNodes]
  have hCreate : mem.dosMempCreate block mempSize blkSize = _ :=
    dosMempCreate_eq hBlk hOrder hBlock
  obtain ⟨p, hMemp, hPoolCnt, hPoolBlk, hHolds⟩ := pool_of_create hCreate hBlock (by omega)
  have hNodes : mempNodes block (mempSize / blkSize) blkSize = p.nodes := by
    rw [Pool.nodes, hMemp, hPoolCnt, hPoolBlk]
  have hInside : ∀ node ∈ p.nodes, block + sizeofMemp ≤ node ∧
      node + sizeofMempNode + blkSize ≤ block + size := by
    intro node hNode
    have hAbove := p.above hNode
    have hBelow := p.below hNode
    rw [hMemp] at hAbove hBelow
    rw [hPoolCnt, hPoolBlk] at hBelow
    omega
  rw [hNodes] at hVisited
  refine ⟨?_, ?_, ?_⟩
  · rw [hBase, hVisited]
    intro node hNode
    have hIn := hInside node hNode
    omega
  · intro x hx
    rw [hCreate, hBase]
    refine initMemp_outside rfl (by omega) ?_
    rw [hVisited]
    intro node hNode
    have hIn := hInside node hNode
    omega
  · intro events r hRun ptr hPtr
    rw [hBase, hVisited]
    rw [hCreate] at hRun
    obtain ⟨free, hEnd⟩ := hHolds.run (by rw [hMemp, hPoolBlk]; exact hRun)
    exact hEnd.issued ptr hPtr

end Create

/-- A new pool is inside of its block iff the size that `dos_memp_create` asks for
is not cut. -/
theorem pool_inside_iff (mempSize blkSize : Nat) (hBlk : blkSize ≠ 0) (hOrder : blkSize ≤ mempSize)
    (hWord : mempSize < 2 ^ 32) :
    (∀ mem block size, block ≠ 0 → mempBytes mempSize blkSize % 2 ^ 32 ≤ size →
        block + size ≤ 2 ^ 32 → PoolInside mem block size mempSize blkSize) ↔
      mempBytes mempSize blkSize < 2 ^ 32 := by
  constructor
  · intro hInside
    by_contra hOver
    have hLess := Nat.mod_lt (mempBytes mempSize blkSize) (show 0 < 2 ^ 32 by decide)
    have hCut := no_room_of_overflow hBlk hOrder hWord (Nat.le_of_not_lt hOver)
    have hPool := hInside (fun _ => 0) 1 (mempBytes mempSize blkSize % 2 ^ 32) (by decide)
      (Nat.le_refl _) (by omega)
    have hCnt : mempSize / blkSize - 1 + 1 = mempSize / blkSize :=
      Nat.sub_add_cancel (Nat.div_pos hOrder (Nat.pos_of_ne_zero hBlk))
    have hRoom := room_of_inside (by decide) (by omega) hPool.nodes
    rw [hCnt, Nat.mod_eq_of_lt (show 1 + sizeofMemp < 2 ^ 32 by decide)] at hRoom
    omega
  · intro hFits mem block size hBlock hRoom hSpace
    rw [Nat.mod_eq_of_lt hFits] at hRoom
    exact poolInside_of_room mem hBlk hOrder hBlock hRoom hSpace

/-- A pool of 20 bytes in blocks of 6. -/
theorem pool_inside_iff_six : PoolInside (fun _ => 0xA5) 4096 84 20 6 :=
  (pool_inside_iff 20 6 (by decide) (by decide) (by decide)).mpr (by decide) _ _ _ (by decide)
    (by decide) (by decide)

/-- For a pool of 2^30 bytes in blocks of 4 bytes, `dos_memp_create` asks for 28
bytes, gets them, and starts to write nodes behind them. -/
theorem cut_request_leaves_block :
    mempBytes (2 ^ 30) 4 % 2 ^ 32 = 28 ∧
    ∃ h', (Heap.layout 0x20000000 104 [⟨104, false, rfl⟩]).dosMemAlloc 28 = some (h', 0x20000018) ∧
      h'.userSize 0x20000018 = 28 ∧
      (Memory.dosMempCreate h'.byte 0x20000018 (2 ^ 30) 4).2 = 0x20000018 ∧
      ¬PoolInside h'.byte 0x20000018 (h'.userSize 0x20000018) (2 ^ 30) 4 := by
  have hRun : ((Heap.layout 0x20000000 104 [⟨104, false, rfl⟩]).dosMemAlloc 28).map
      (fun r => (r.2, r.1.userSize r.2)) = some (0x20000018, 28) := by decide +kernel
  obtain ⟨⟨h', p⟩, hAlloc, hResult⟩ := Option.map_eq_some_iff.mp hRun
  obtain ⟨rfl, hSize⟩ := Prod.mk.inj hResult
  refine ⟨by decide, h', hAlloc, hSize, ?_, ?_⟩
  · rw [dosMempCreate_eq (by decide) (by decide) (by decide)]
  · intro hInside
    have hFirst := (hInside.nodes _ mem_visited_self).2
    rw [hSize] at hFirst
    exact absurd hFirst (by decide)

end DoraOS
