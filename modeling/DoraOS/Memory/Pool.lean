import DoraOS.Creation.Creators
import DoraOS.Library.ByteWords
import DoraOS.Library.Links
import DoraOS.Library.Runs

/-! The memory pools of `mem/memp.c` with `DOS_HEAP_TO_MEMP`. A pool is one
block of the heap: its structure, and behind it the nodes, each in front of the
block that it hands out. The size of a block need not be a multiple of four, so
a node may be at any address, and the memory is one of bytes here. -/
namespace DoraOS

open ByteWords Links Transition

namespace Memory

def word (mem : Memory) (a : Nat) : Nat := load mem 4 a

def setWord (mem : Memory) (a v : Nat) : Memory := store mem 4 a v

theorem word_setWord_same (mem : Memory) (a : Nat) {v : Nat} (h : v < 2 ^ 32) :
    (mem.setWord a v).word a = v := by
  rw [word, setWord, load_store_same]
  exact Nat.mod_eq_of_lt h

theorem word_setWord_apart (mem : Memory) {a b v : Nat} (h : b + 4 ≤ a ∨ a + 4 ≤ b) :
    (mem.setWord a v).word b = mem.word b := load_store_apart h

theorem word_lt (mem : Memory) (a : Nat) : mem.word a < 2 ^ 32 := load_lt mem 4 a

variable (mem : Memory)

/-- The counts of a `struct dos_memp`. -/
def mempTotalCount (memp : Nat) : Nat := mem.word (memp + 4)
def mempFreeCount (memp : Nat) : Nat := mem.word (memp + 8)
def setMempFreeCount (memp count : Nat) : Memory := mem.setWord (memp + 8) count

/-- The fields of a `struct dos_memp_node`. -/
def status (node : Nat) : Nat := mem.word node
def dosMemp (node : Nat) : Nat := mem.word (node + 4)
def next (node : Nat) : Nat := mem.word (node + 8)
def setStatus (node status : Nat) : Memory := mem.setWord node status
def setDosMemp (node memp : Nat) : Memory := mem.setWord (node + 4) memp
def setNext (node nextNode : Nat) : Memory := mem.setWord (node + 8) nextNode

end Memory

/-- The field `memp_free` is a node of its own, in front of the free ones. -/
def mempFree (memp : Nat) : Nat := memp + 16

def mempStatusUnused : Nat := 0x00
def mempStatusUsed : Nat := 0x01

/-- The size that `dos_memp_create` asks of the heap, before it is cut to 32 bits. -/
def mempBytes (mempSize blkSize : Nat) : Nat :=
  sizeofMemp + sizeofMempNode * (mempSize / blkSize) + mempSize

namespace Memory

/-- The loop of `dos_memp_create` over the nodes of a pool, with the last node
behind it. `status` is not assigned. -/
def linkMempNodes (memp blkSize : Nat) : Nat → Memory → Nat → Memory
  | 0, mem, node => (mem.setNext node 0).setDosMemp node memp
  | i + 1, mem, node =>
      let nextNode := (node + sizeofMempNode + blkSize) % 2 ^ 32
      linkMempNodes memp blkSize i ((mem.setNext node nextNode).setDosMemp node memp) nextNode

variable (mem : Memory)

/-- `dos_memp_create` behind its allocation. -/
def initMemp (memp base mempSize mempCnt blkSize : Nat) : Memory :=
  let mem := (((mem.setWord (memp + 12) base).setWord memp mempSize).setWord
    (memp + 4) mempCnt).setMempFreeCount memp mempCnt
  let mem := (mem.setDosMemp base memp).setNext (mempFree memp) base
  linkMempNodes memp blkSize (mempCnt - 1) mem base

/-- `dos_memp_create`. `block` is what `dos_mem_alloc` returns for the pool. -/
def dosMempCreate (block mempSize blkSize : Nat) : Memory × Nat :=
  if blkSize = 0 ∨ mempSize = 0 ∨ mempSize < blkSize then (mem, 0)
  else if block = 0 then (mem, 0)
  else
    (mem.initMemp block ((block + sizeofMemp) % 2 ^ 32) mempSize (mempSize / blkSize) blkSize,
      block)

def dosMempAlloc (memp : Nat) : Memory × Nat :=
  if mem.mempFreeCount memp = 0 ∨ mem.next (mempFree memp) = 0 then (mem, 0)
  else
    let mem := mem.setMempFreeCount memp (mem.mempFreeCount memp - 1)
    let node := mem.next (mempFree memp)
    let mem := mem.setStatus node mempStatusUsed
    let mem := mem.setNext (mempFree memp) (mem.next node)
    (mem, (node + sizeofMempNode) % 2 ^ 32)

def dosMempFree (ptr : Nat) : Memory :=
  let node := (ptr + (2 ^ 32 - sizeofMempNode)) % 2 ^ 32
  let memp := mem.dosMemp node
  if mem.status node = mempStatusUnused ∨ memp = 0 ∨
      mem.mempFreeCount memp ≥ mem.mempTotalCount memp then mem
  else
    let nextNode := mem.next (mempFree memp)
    let mem := mem.setNext (mempFree memp) node
    let mem := mem.setNext node nextNode
    let mem := mem.setMempFreeCount memp ((mem.mempFreeCount memp + 1) % 2 ^ 32)
    mem.setStatus node mempStatusUnused

end Memory

def mempNodes (memp mempCnt blkSize : Nat) : List Nat :=
  List.range' (memp + sizeofMemp) mempCnt (sizeofMempNode + blkSize)

/-- A pool and its clients. `issued` are the pointers that `dos_memp_alloc` has
returned so far, and `live` those of them that were not given back since. -/
structure PoolRun where
  mem : Memory
  live : List Nat
  issued : List Nat

def PoolRun.start (mem : Memory) : PoolRun := { mem := mem, live := [], issued := [] }

/-- Calls on a pool, and bytes that the clients write. -/
inductive PoolEvent where
  | alloc
  | free (ptr : Nat)
  | write (ptr offset : Nat) (byte : UInt8)

/-- One step of the clients. A pointer that was returned once may be freed any
number of times, and a client may write into the block behind it even then. -/
def poolStep (memp blkSize : Nat) (r : PoolRun) : PoolEvent → Option PoolRun
  | .alloc =>
      let made := r.mem.dosMempAlloc memp
      if made.2 = 0 then some { r with mem := made.1 }
      else some { mem := made.1, live := made.2 :: r.live, issued := made.2 :: r.issued }
  | .free ptr =>
      if ptr ∈ r.issued then
        some { r with mem := r.mem.dosMempFree ptr, live := r.live.erase ptr }
      else none
  | .write ptr offset byte =>
      if ptr ∈ r.issued ∧ offset < blkSize then
        some { r with mem := fun a => if a = ptr + offset then byte else r.mem a }
      else none

/-- The place of a pool. It does not reach over the end of the address space. -/
structure Pool where
  memp : Nat
  mempCnt : Nat
  blkSize : Nat
  memp_pos : 0 < memp
  cnt_pos : 0 < mempCnt
  blk_pos : 0 < blkSize
  fits : memp + sizeofMemp + mempCnt * (sizeofMempNode + blkSize) ≤ 2 ^ 32

namespace Pool

variable (p : Pool) {x y : Nat}

def nodes : List Nat := mempNodes p.memp p.mempCnt p.blkSize

theorem mem_nodes : x ∈ p.nodes ↔
    ∃ i < p.mempCnt, x = p.memp + sizeofMemp + (sizeofMempNode + p.blkSize) * i :=
  List.mem_range'

theorem length_nodes : p.nodes.length = p.mempCnt := List.length_range'

theorem nodup_nodes : p.nodes.Nodup :=
  List.nodup_range' _ (Nat.add_pos_left (by decide) p.blkSize)

theorem above (hx : x ∈ p.nodes) : p.memp + sizeofMemp ≤ x := by
  obtain ⟨i, -, rfl⟩ := p.mem_nodes.mp hx
  exact Nat.le_add_right _ _

theorem below (hx : x ∈ p.nodes) :
    x + sizeofMempNode + p.blkSize ≤
      p.memp + sizeofMemp + p.mempCnt * (sizeofMempNode + p.blkSize) := by
  obtain ⟨i, hi, rfl⟩ := p.mem_nodes.mp hx
  have hRows : (i + 1) * (sizeofMempNode + p.blkSize) ≤ p.mempCnt * (sizeofMempNode + p.blkSize) :=
    Nat.mul_le_mul_right _ hi
  rw [Nat.succ_mul, Nat.mul_comm] at hRows
  omega

/-- A node and its block are apart from every other node. -/
theorem apart (hx : x ∈ p.nodes) (hy : y ∈ p.nodes) (hNe : x ≠ y) :
    x + sizeofMempNode + p.blkSize ≤ y ∨ y + sizeofMempNode + p.blkSize ≤ x := by
  obtain ⟨i, -, rfl⟩ := p.mem_nodes.mp hx
  obtain ⟨j, -, rfl⟩ := p.mem_nodes.mp hy
  have hStep (i j : Nat) (h : i < j) : (sizeofMempNode + p.blkSize) * i +
      (sizeofMempNode + p.blkSize) ≤ (sizeofMempNode + p.blkSize) * j := Nat.mul_le_mul_left _ h
  rcases Nat.lt_trichotomy i j with h | h | h
  · have := hStep i j h
    omega
  · exact absurd (by rw [h]) hNe
  · have := hStep j i h
    omega

end Pool

section Creation

variable {mem : Memory} {memp blkSize node i a : Nat}

theorem fits_succ (hFits : node + (i + 1 + 1) * (sizeofMempNode + blkSize) ≤ 2 ^ 32) :
    node + sizeofMempNode + blkSize < 2 ^ 32 ∧
      node + sizeofMempNode + blkSize + (i + 1) * (sizeofMempNode + blkSize) ≤ 2 ^ 32 := by
  rw [Nat.succ_mul] at hFits
  have hSize : sizeofMempNode = 12 := rfl
  have hRest : sizeofMempNode + blkSize ≤ (i + 1) * (sizeofMempNode + blkSize) :=
    Nat.le_mul_of_pos_left _ (Nat.succ_pos i)
  omega

/-- One round of the loop, where the address of the next node does not wrap. -/
theorem linkMempNodes_succ (hLt : node + sizeofMempNode + blkSize < 2 ^ 32) :
    mem.linkMempNodes memp blkSize (i + 1) node =
      ((mem.setNext node (node + sizeofMempNode + blkSize)).setDosMemp node memp).linkMempNodes
        memp blkSize i (node + sizeofMempNode + blkSize) := by
  rw [Memory.linkMempNodes, Nat.mod_eq_of_lt hLt]

/-- The loop writes behind the status of its first node only. -/
theorem word_linkMempNodes (hFits : node + (i + 1) * (sizeofMempNode + blkSize) ≤ 2 ^ 32)
    (ha : a ≤ node) : (mem.linkMempNodes memp blkSize i node).word a = mem.word a := by
  have hRound (mem : Memory) (node v : Nat) (h : a ≤ node) :
      ((mem.setNext node v).setDosMemp node memp).word a = mem.word a := by
    rw [Memory.setDosMemp, Memory.word_setWord_apart _ (by omega), Memory.setNext,
      Memory.word_setWord_apart _ (by omega)]
  induction i generalizing mem node with
  | zero => exact hRound mem node 0 ha
  | succ i ih =>
      obtain ⟨hLt, hRest⟩ := fits_succ hFits
      rw [linkMempNodes_succ hLt, ih hRest (by omega), hRound mem node _ ha]

/-- A round sets the two fields of its node. -/
theorem round_next (mem : Memory) (node : Nat) {v : Nat} (hv : v < 2 ^ 32) :
    ((mem.setNext node v).setDosMemp node memp).next node = v := by
  rw [Memory.next, Memory.setDosMemp, Memory.word_setWord_apart _ (by omega), Memory.setNext,
    Memory.word_setWord_same _ _ hv]

theorem round_dosMemp (mem : Memory) (node v : Nat) (hMemp : memp < 2 ^ 32) :
    ((mem.setNext node v).setDosMemp node memp).dosMemp node = memp :=
  Memory.word_setWord_same _ _ hMemp

/-- The nodes of the loop are linked in the order of their addresses. -/
theorem linked_linkMempNodes (hFits : node + (i + 1) * (sizeofMempNode + blkSize) ≤ 2 ^ 32) :
    Linked (mem.linkMempNodes memp blkSize i node).next
      (List.range' node (i + 1) (sizeofMempNode + blkSize) ++ [0]) := by
  induction i generalizing mem node with
  | zero => exact List.isChain_pair.mpr (round_next mem node (by decide))
  | succ i ih =>
      obtain ⟨hLt, hRest⟩ := fits_succ hFits
      have hSize : sizeofMempNode = 12 := rfl
      rw [linkMempNodes_succ hLt, List.range'_succ, ← Nat.add_assoc, List.cons_append]
      refine List.isChain_cons.mpr ⟨?_, ih hRest⟩
      intro y hy
      rw [List.range'_succ, List.cons_append, List.head?_cons, Option.mem_some_iff] at hy
      rw [← hy, Memory.next, word_linkMempNodes hRest (by omega)]
      exact round_next mem node hLt

/-- Every node of the loop gets its pool. -/
theorem dosMemp_linkMempNodes (hMemp : memp < 2 ^ 32)
    (hFits : node + (i + 1) * (sizeofMempNode + blkSize) ≤ 2 ^ 32) :
    ∀ x ∈ List.range' node (i + 1) (sizeofMempNode + blkSize),
      (mem.linkMempNodes memp blkSize i node).dosMemp x = memp := by
  induction i generalizing mem node with
  | zero =>
      intro x hx
      rw [List.range'_one, List.mem_singleton] at hx
      rw [hx]
      exact round_dosMemp mem node 0 hMemp
  | succ i ih =>
      intro x hx
      obtain ⟨hLt, hRest⟩ := fits_succ hFits
      have hSize : sizeofMempNode = 12 := rfl
      rw [linkMempNodes_succ hLt]
      rw [List.range'_succ, ← Nat.add_assoc, List.mem_cons] at hx
      rcases hx with rfl | hx
      · rw [Memory.dosMemp, word_linkMempNodes hRest (by omega)]
        exact round_dosMemp mem x _ hMemp
      · exact ih hRest x hx

/-- The structure of the pool is complete before the loop starts. -/
theorem initMemp_eq (mem : Memory) (memp mempSize mempCnt blkSize : Nat) {base : Nat}
    (hCnt : mempCnt < 2 ^ 32)
    (hBase : memp + sizeofMemp = base) (hLt : base < 2 ^ 32) :
    ∃ mem₁ : Memory, mem.initMemp memp base mempSize mempCnt blkSize =
        mem₁.linkMempNodes memp blkSize (mempCnt - 1) base ∧
      mem₁.mempTotalCount memp = mempCnt ∧ mem₁.mempFreeCount memp = mempCnt ∧
      mem₁.next (mempFree memp) = base := by
  have hAbove : memp + 28 = base := hBase
  refine ⟨_, rfl, ?_, ?_, Memory.word_setWord_same _ _ hLt⟩
  · simp (disch := omega) only [Memory.mempTotalCount, Memory.setNext, Memory.setDosMemp,
      Memory.setMempFreeCount, mempFree, Memory.word_setWord_apart, Memory.word_setWord_same]
  · simp (disch := omega) only [Memory.mempFreeCount, Memory.setNext, Memory.setDosMemp,
      Memory.setMempFreeCount, mempFree, Memory.word_setWord_apart, Memory.word_setWord_same]

end Creation

/-- A pool with the nodes `free` on its free list. A node that was never handed
out may have any status, because `dos_memp_create` does not set it. -/
structure Pool.Holds (p : Pool) (r : PoolRun) (free : List Nat) : Prop where
  linked : Linked r.mem.next (mempFree p.memp :: (free ++ [0]))
  total : r.mem.mempTotalCount p.memp = p.mempCnt
  count : r.mem.mempFreeCount p.memp = free.length
  parts : (free.map (· + sizeofMempNode) ++ r.live).Perm (p.nodes.map (· + sizeofMempNode))
  owner : ∀ x ∈ p.nodes, r.mem.dosMemp x = p.memp
  used : ∀ x, x + sizeofMempNode ∈ r.live → r.mem.status x = mempStatusUsed
  unused : ∀ x, x + sizeofMempNode ∈ r.issued → x + sizeofMempNode ∉ r.live →
    r.mem.status x = mempStatusUnused
  issued : ∀ ptr ∈ r.issued, ∃ x ∈ p.nodes, ptr = x + sizeofMempNode
  live : ∀ ptr ∈ r.live, ptr ∈ r.issued

/-- The memory of a pool when a node changes its list: the count of free nodes,
the pointer to the first of them, and the status and pointer of that node. -/
structure Pool.Moves (p : Pool) (mem mem' : Memory) (node count status : Nat) : Prop where
  count : mem'.mempFreeCount p.memp = count
  status : mem'.status node = status
  total : mem'.mempTotalCount p.memp = mem.mempTotalCount p.memp
  owner : ∀ x ∈ p.nodes, mem'.dosMemp x = mem.dosMemp x
  others : ∀ x ∈ p.nodes, x ≠ node → mem'.status x = mem.status x ∧ mem'.next x = mem.next x

namespace Pool

variable {p : Pool} {mem mem' : Memory} {r : PoolRun} {free : List Nat} {x y node : Nat}

/-- A write to the fields of the pool from `memp_free_count` on, and to a node. -/
theorem moves_of_frame {count status : Nat} (hNode : node ∈ p.nodes)
    (hCount : mem'.mempFreeCount p.memp = count) (hStatus : mem'.status node = status)
    (hOwner : mem'.dosMemp node = mem.dosMemp node)
    (hFrame : ∀ a, a + 4 ≤ p.memp + 8 ∨ p.memp + 28 ≤ a → a + 4 ≤ node ∨ node + 12 ≤ a →
      mem'.word a = mem.word a) : p.Moves mem mem' node count status := by
  have hAbove (x : Nat) (hx : x ∈ p.nodes) : p.memp + 28 ≤ x := p.above hx
  have hApart (x : Nat) (hx : x ∈ p.nodes) (hNe : x ≠ node) : x + 12 ≤ node ∨ node + 12 ≤ x := by
    have hDist := p.apart hx hNode hNe
    have hSize : sizeofMempNode = 12 := rfl
    omega
  have hNodeAbove := hAbove node hNode
  refine ⟨hCount, hStatus, hFrame _ (by omega) (by omega), ?_, ?_⟩
  · intro x hx
    by_cases hEq : x = node
    · rw [hEq, hOwner]
    · have hx' := hAbove x hx
      have hDist := hApart x hx hEq
      exact hFrame _ (by omega) (by omega)
  · intro x hx hNe
    have hx' := hAbove x hx
    have hDist := hApart x hx hNe
    exact ⟨hFrame _ (by omega) (by omega), hFrame _ (by omega) (by omega)⟩

/-- `dos_memp_alloc` takes the first free node. -/
theorem moves_alloc (hNode : node ∈ p.nodes) (hFirst : mem.next (mempFree p.memp) = node)
    (hCount : mem.mempFreeCount p.memp ≠ 0) :
    ∃ mem', mem.dosMempAlloc p.memp = (mem', node + sizeofMempNode) ∧
      p.Moves mem mem' node (mem.mempFreeCount p.memp - 1) mempStatusUsed ∧
      mem'.next (mempFree p.memp) = mem.next node := by
  have hAbove : p.memp + 28 ≤ node := p.above hNode
  have hBelow : node + 12 + p.blkSize ≤ 2 ^ 32 := (p.below hNode).trans p.fits
  have hBlk := p.blk_pos
  have hWord := mem.word_lt (p.memp + 8)
  have hNext := mem.word_lt (node + 8)
  refine ⟨((mem.setMempFreeCount p.memp (mem.mempFreeCount p.memp - 1)).setStatus node
    mempStatusUsed).setNext (mempFree p.memp) (mem.next node), ?_, ?_, ?_⟩
  · have hRead : (mem.setMempFreeCount p.memp (mem.mempFreeCount p.memp - 1)).next
        (mempFree p.memp) = node := by
      rw [Memory.next, Memory.setMempFreeCount, mempFree, Memory.word_setWord_apart _ (by omega)]
      exact hFirst
    have hLink : ((mem.setMempFreeCount p.memp (mem.mempFreeCount p.memp - 1)).setStatus node
        mempStatusUsed).next node = mem.next node := by
      rw [Memory.next, Memory.setStatus, Memory.word_setWord_apart _ (by omega),
        Memory.setMempFreeCount, Memory.word_setWord_apart _ (by omega), Memory.next]
    have hFree : ¬(mem.mempFreeCount p.memp = 0 ∨ mem.next (mempFree p.memp) = 0) := by
      rw [hFirst]
      omega
    simp only [Memory.dosMempAlloc, if_neg hFree, hRead, hLink]
    rw [Nat.mod_eq_of_lt]
    simp only [sizeofMempNode]
    omega
  · apply moves_of_frame hNode
    · simp (disch := omega) only [Memory.mempFreeCount, Memory.setNext, Memory.setStatus,
        Memory.setMempFreeCount, mempFree, Memory.word_setWord_apart, Memory.word_setWord_same]
    · simp (disch := omega) only [Memory.status, Memory.setNext, Memory.setStatus, mempFree,
        Memory.word_setWord_apart]
      exact Memory.word_setWord_same _ _ (by decide)
    · simp (disch := omega) only [Memory.dosMemp, Memory.setNext, Memory.setStatus,
        Memory.setMempFreeCount, mempFree, Memory.word_setWord_apart]
    · intro a hPool hOut
      simp (disch := omega) only [Memory.setNext, Memory.setStatus,
        Memory.setMempFreeCount, mempFree, Memory.word_setWord_apart]
  · exact Memory.word_setWord_same _ _ hNext

/-- The node in front of a block is found again. -/
theorem node_of_ptr (h : node < 2 ^ 32) :
    (node + sizeofMempNode + (2 ^ 32 - sizeofMempNode)) % 2 ^ 32 = node := by
  simp only [sizeofMempNode]
  omega

/-- `dos_memp_free` puts a used node in front of the free ones. -/
theorem moves_free (hNode : node ∈ p.nodes) (hOwner : mem.dosMemp node = p.memp)
    (hUsed : mem.status node = mempStatusUsed)
    (hCount : mem.mempFreeCount p.memp < mem.mempTotalCount p.memp) :
    p.Moves mem (mem.dosMempFree (node + sizeofMempNode)) node (mem.mempFreeCount p.memp + 1)
        mempStatusUnused ∧
      (mem.dosMempFree (node + sizeofMempNode)).next (mempFree p.memp) = node ∧
      (mem.dosMempFree (node + sizeofMempNode)).next node = mem.next (mempFree p.memp) := by
  have hAbove : p.memp + 28 ≤ node := p.above hNode
  have hBelow : node + 12 + p.blkSize ≤ 2 ^ 32 := (p.below hNode).trans p.fits
  have hTotal : mem.mempTotalCount p.memp < 2 ^ 32 := mem.word_lt (p.memp + 4)
  have hNext : mem.next (mempFree p.memp) < 2 ^ 32 := mem.word_lt _
  have hMore : mem.mempFreeCount p.memp + 1 < 2 ^ 32 := by omega
  have hEq : mem.dosMempFree (node + sizeofMempNode) =
      (((mem.setNext (mempFree p.memp) node).setNext node (mem.next (mempFree p.memp))).setMempFreeCount
        p.memp (mem.mempFreeCount p.memp + 1)).setStatus node mempStatusUnused := by
    have hRead : ((mem.setNext (mempFree p.memp) node).setNext node
        (mem.next (mempFree p.memp))).mempFreeCount p.memp = mem.mempFreeCount p.memp := by
      simp (disch := omega) only [Memory.mempFreeCount, Memory.setNext, mempFree,
        Memory.word_setWord_apart]
    have hBusy : ¬(mem.status node = mempStatusUnused ∨ p.memp = 0 ∨
        mem.mempFreeCount p.memp ≥ mem.mempTotalCount p.memp) := by
      have hPos := p.memp_pos
      rw [hUsed, mempStatusUsed, mempStatusUnused]
      omega
    simp only [Memory.dosMempFree, node_of_ptr (show node < 2 ^ 32 by omega), hOwner,
      if_neg hBusy, hRead]
    rw [Nat.mod_eq_of_lt hMore]
  rw [hEq]
  refine ⟨?_, ?_, ?_⟩
  · apply moves_of_frame hNode
    · simp (disch := omega) only [Memory.mempFreeCount, Memory.setStatus,
        Memory.setMempFreeCount, Memory.word_setWord_apart]
      exact Memory.word_setWord_same _ _ hMore
    · exact Memory.word_setWord_same _ _ (by decide)
    · simp (disch := omega) only [Memory.dosMemp, Memory.setNext, Memory.setStatus,
        Memory.setMempFreeCount, mempFree, Memory.word_setWord_apart]
    · intro a hPool hOut
      simp (disch := omega) only [Memory.setNext, Memory.setStatus,
        Memory.setMempFreeCount, mempFree, Memory.word_setWord_apart]
  · simp (disch := omega) only [Memory.next, Memory.setNext, Memory.setStatus,
      Memory.setMempFreeCount, mempFree, Memory.word_setWord_apart, Memory.word_setWord_same]
  · rw [Memory.next, Memory.setStatus, Memory.word_setWord_apart _ (by omega),
      Memory.setMempFreeCount, Memory.word_setWord_apart _ (by omega), Memory.setNext,
      Memory.word_setWord_same _ _ hNext]

namespace Holds

theorem mem_free_or_live (h : p.Holds r free) (hx : x ∈ p.nodes) :
    x ∈ free ∨ x + sizeofMempNode ∈ r.live := by
  have hMem : x + sizeofMempNode ∈ free.map (· + sizeofMempNode) ++ r.live :=
    h.parts.mem_iff.mpr (List.mem_map_of_mem hx)
  rcases List.mem_append.mp hMem with hFree | hLive
  · obtain ⟨y, hy, hEq⟩ := List.mem_map.mp hFree
    exact .inl (Nat.add_right_cancel hEq ▸ hy)
  · exact .inr hLive

theorem node_of_mem (h : p.Holds r free)
    (hx : x + sizeofMempNode ∈ free.map (· + sizeofMempNode) ++ r.live) : x ∈ p.nodes := by
  obtain ⟨y, hy, hEq⟩ := List.mem_map.mp (h.parts.mem_iff.mp hx)
  exact Nat.add_right_cancel hEq ▸ hy

theorem free_node (h : p.Holds r free) (hx : x ∈ free) : x ∈ p.nodes :=
  h.node_of_mem (List.mem_append_left _ (List.mem_map_of_mem hx))

theorem live_node (h : p.Holds r free) (hx : x + sizeofMempNode ∈ r.live) : x ∈ p.nodes :=
  h.node_of_mem (List.mem_append_right _ hx)

theorem issued_node (h : p.Holds r free) (hx : x + sizeofMempNode ∈ r.issued) : x ∈ p.nodes := by
  obtain ⟨y, hy, hEq⟩ := h.issued _ hx
  exact Nat.add_right_cancel hEq ▸ hy

theorem nodup (h : p.Holds r free) : (free.map (· + sizeofMempNode) ++ r.live).Nodup :=
  h.parts.nodup_iff.mpr (p.nodup_nodes.map (add_left_injective sizeofMempNode))

theorem nodup_free (h : p.Holds r free) : free.Nodup :=
  List.Nodup.of_map _ (List.nodup_append.mp h.nodup).1

theorem not_live (h : p.Holds r free) (hx : x ∈ free) : x + sizeofMempNode ∉ r.live :=
  List.disjoint_of_nodup_append h.nodup (List.mem_map_of_mem hx)

theorem length (h : p.Holds r free) : free.length + r.live.length = p.mempCnt := by
  have hLength := h.parts.length_eq
  rw [List.length_append, List.length_map, List.length_map, p.length_nodes] at hLength
  exact hLength

theorem alloc (h : p.Holds r (node :: free)) :
    ∃ mem', r.mem.dosMempAlloc p.memp = (mem', node + sizeofMempNode) ∧
      p.Holds ⟨mem', (node + sizeofMempNode) :: r.live, (node + sizeofMempNode) :: r.issued⟩
        free := by
  have hNode : node ∈ p.nodes := h.free_node List.mem_cons_self
  have hNodup : node ∉ free := (List.nodup_cons.mp h.nodup_free).1
  have hCount : r.mem.mempFreeCount p.memp = free.length + 1 := h.count
  obtain ⟨mem', hAlloc, hMoves, hFirst⟩ := moves_alloc hNode h.linked.head (by omega)
  have hFree (x : Nat) (hx : x ∈ free) : x ∈ p.nodes ∧ x ≠ node :=
    ⟨h.free_node (List.mem_cons_of_mem node hx), fun hEq => hNodup (hEq ▸ hx)⟩
  refine ⟨mem', hAlloc, ?_, ?_, ?_, ?_, ?_, ?_, ?_, ?_, ?_⟩
  · apply h.linked.pop hFirst
    intro x hx
    exact (hMoves.others x (hFree x hx).1 (hFree x hx).2).2
  · rw [hMoves.total, h.total]
  · rw [hMoves.count, hCount, Nat.add_sub_cancel]
  · exact List.perm_middle.trans h.parts
  · intro x hx
    rw [hMoves.owner x hx, h.owner x hx]
  · intro x hx
    rcases List.mem_cons.mp hx with hEq | hLive
    · rw [Nat.add_right_cancel hEq, hMoves.status]
    · have hNe : x ≠ node := fun hEq => h.not_live List.mem_cons_self (hEq ▸ hLive)
      rw [(hMoves.others x (h.live_node hLive) hNe).1, h.used x hLive]
  · intro x hx hIdle
    rw [List.mem_cons, not_or] at hIdle
    have hIssued := (List.mem_cons.mp hx).resolve_left hIdle.1
    have hNe : x ≠ node := fun hEq => hIdle.1 (by rw [hEq])
    rw [(hMoves.others x (h.issued_node hIssued) hNe).1, h.unused x hIssued hIdle.2]
  · intro ptr hPtr
    rcases List.mem_cons.mp hPtr with rfl | hPtr
    · exact ⟨node, hNode, rfl⟩
    · exact h.issued ptr hPtr
  · intro ptr hPtr
    rcases List.mem_cons.mp hPtr with rfl | hPtr
    · exact List.mem_cons_self
    · exact List.mem_cons_of_mem _ (h.live ptr hPtr)

theorem alloc_empty (h : p.Holds r []) : r.mem.dosMempAlloc p.memp = (r.mem, 0) := by
  have hFirst : r.mem.next (mempFree p.memp) = 0 := h.linked.head
  rw [Memory.dosMempAlloc, if_pos (.inr hFirst)]

/-- A used block goes back. -/
theorem free_live (h : p.Holds r free) (hLive : node + sizeofMempNode ∈ r.live) :
    p.Holds ⟨r.mem.dosMempFree (node + sizeofMempNode), r.live.erase (node + sizeofMempNode),
      r.issued⟩ (node :: free) := by
  have hNode : node ∈ p.nodes := h.live_node hLive
  have hLength := h.length
  have hPos : 0 < r.live.length := List.length_pos_of_mem hLive
  have hNodup : r.live.Nodup := (List.nodup_append.mp h.nodup).2.1
  obtain ⟨hMoves, hFirst, hNext⟩ := moves_free hNode (h.owner node hNode) (h.used node hLive)
    (by rw [h.count, h.total]; omega)
  have hFree (x : Nat) (hx : x ∈ free) : x ≠ node := fun hEq => h.not_live (hEq ▸ hx) hLive
  refine ⟨?_, ?_, ?_, ?_, ?_, ?_, ?_, ?_, ?_⟩
  · apply h.linked.push hFirst hNext
    intro x hx
    exact (hMoves.others x (h.free_node hx) (hFree x hx)).2
  · rw [hMoves.total, h.total]
  · rw [hMoves.count, h.count, List.length_cons]
  · have hErase := (List.perm_cons_erase hLive).symm
    exact (List.perm_middle.symm.trans (hErase.append_left _)).trans h.parts
  · intro x hx
    rw [hMoves.owner x hx, h.owner x hx]
  · intro x hx
    obtain ⟨hNe, hx⟩ := hNodup.mem_erase_iff.mp hx
    rw [(hMoves.others x (h.live_node hx) fun hEq => hNe (by rw [hEq])).1, h.used x hx]
  · intro x hx hIdle
    by_cases hEq : x = node
    · rw [hEq, hMoves.status]
    · have hNotLive : x + sizeofMempNode ∉ r.live := fun hMem =>
        hIdle (hNodup.mem_erase_iff.mpr ⟨fun hSame => hEq (Nat.add_right_cancel hSame), hMem⟩)
      rw [(hMoves.others x (h.issued_node hx) hEq).1, h.unused x hx hNotLive]
  · exact h.issued
  · intro ptr hPtr
    exact h.live ptr (List.mem_of_mem_erase hPtr)

/-- A pointer that is not live is not freed once more. -/
theorem free_idle (h : p.Holds r free) {ptr : Nat} (hIssued : ptr ∈ r.issued)
    (hIdle : ptr ∉ r.live) : r.mem.dosMempFree ptr = r.mem := by
  obtain ⟨x, hx, rfl⟩ := h.issued ptr hIssued
  have hBelow : x + 12 + p.blkSize ≤ 2 ^ 32 := (p.below hx).trans p.fits
  have hUnused := h.unused x hIssued hIdle
  simp only [Memory.dosMempFree, node_of_ptr (show x < 2 ^ 32 by omega), if_pos (Or.inl hUnused)]

/-- The bytes of a block are not those of a field. -/
theorem write (h : p.Holds r free) {ptr offset : Nat} (byte : UInt8) (hIssued : ptr ∈ r.issued)
    (hOffset : offset < p.blkSize) :
    p.Holds { r with mem := fun a => if a = ptr + offset then byte else r.mem a } free := by
  obtain ⟨y, hy, rfl⟩ := h.issued ptr hIssued
  have hAbove : p.memp + 28 ≤ y := p.above hy
  have hSize : sizeofMempNode = 12 := rfl
  have hWord (a : Nat) (ha : a + 4 ≤ y + 12 ∨ y + 12 + p.blkSize ≤ a) :
      Memory.word (fun a => if a = y + sizeofMempNode + offset then byte else r.mem a) a =
        r.mem.word a := by
    apply load_congr
    intro x hLow hHigh
    exact if_neg (by omega)
  have hNode (x k : Nat) (hx : x ∈ p.nodes) (hk : k ≤ 8) :
      Memory.word (fun a => if a = y + sizeofMempNode + offset then byte else r.mem a) (x + k) =
        r.mem.word (x + k) := by
    by_cases hEq : x = y
    · exact hWord _ (by omega)
    · have hApart := p.apart hx hy hEq
      exact hWord _ (by omega)
  refine ⟨?_, ?_, ?_, h.parts, ?_, ?_, ?_, h.issued, h.live⟩
  · apply Linked.congr (l := mempFree p.memp :: free) h.linked
    intro x hx
    rcases List.mem_cons.mp hx with rfl | hx
    · exact hWord _ (by simp only [mempFree]; omega)
    · exact hNode x 8 (h.free_node hx) (by omega)
  · rw [← h.total]
    exact hWord _ (by omega)
  · rw [← h.count]
    exact hWord _ (by omega)
  · intro x hx
    rw [← h.owner x hx]
    exact hNode x 4 hx (by omega)
  · intro x hx
    rw [← h.used x hx]
    exact hNode x 0 (h.live_node hx) (by omega)
  · intro x hx hIdle
    rw [← h.unused x hx hIdle]
    exact hNode x 0 (h.issued_node hx) (by omega)

/-- Every step of the clients keeps the invariant. -/
theorem step {event : PoolEvent} {r' : PoolRun} (h : p.Holds r free)
    (hStep : poolStep p.memp p.blkSize r event = some r') : ∃ free', p.Holds r' free' := by
  cases event with
  | alloc =>
      cases free with
      | nil =>
          simp only [poolStep, h.alloc_empty, ↓reduceIte, Option.some.injEq] at hStep
          exact ⟨[], hStep ▸ h⟩
      | cons node rest =>
          obtain ⟨mem', hAlloc, hHolds⟩ := h.alloc
          have hNe : node + sizeofMempNode ≠ 0 := Nat.succ_ne_zero _
          simp only [poolStep, hAlloc, hNe, ↓reduceIte, Option.some.injEq] at hStep
          exact ⟨rest, hStep ▸ hHolds⟩
  | free ptr =>
      obtain ⟨hIssued, rfl⟩ := guard_some hStep
      by_cases hLive : ptr ∈ r.live
      · obtain ⟨x, -, rfl⟩ := h.issued ptr hIssued
        exact ⟨_, h.free_live hLive⟩
      · rw [h.free_idle hIssued hLive, List.erase_of_not_mem hLive]
        exact ⟨free, h⟩
  | write ptr offset byte =>
      obtain ⟨⟨hIssued, hOffset⟩, rfl⟩ := guard_some hStep
      exact ⟨free, h.write byte hIssued hOffset⟩

/-- All nodes of a new pool are free. -/
theorem init (p : Pool) (mem : Memory) (mempSize : Nat) :
    p.Holds (PoolRun.start (mem.initMemp p.memp (p.memp + sizeofMemp) mempSize p.mempCnt
      p.blkSize)) p.nodes := by
  have hFits := p.fits
  have hPos := p.cnt_pos
  have hSize : sizeofMemp = 28 := rfl
  have hRows : p.mempCnt ≤ p.mempCnt * (sizeofMempNode + p.blkSize) :=
    Nat.le_mul_of_pos_right _ (Nat.add_pos_left (by decide) _)
  obtain ⟨mem₁, hEq, hTotal, hCount, hFirst⟩ :=
    initMemp_eq mem p.memp mempSize p.mempCnt p.blkSize (by omega) rfl (by omega)
  have hCnt : p.mempCnt - 1 + 1 = p.mempCnt := Nat.sub_add_cancel hPos
  have hLoop : p.memp + sizeofMemp + (p.mempCnt - 1 + 1) * (sizeofMempNode + p.blkSize) ≤ 2 ^ 32 :=
    hCnt.symm ▸ hFits
  have hNodes : p.nodes = List.range' (p.memp + sizeofMemp) (p.mempCnt - 1 + 1)
      (sizeofMempNode + p.blkSize) := by rw [hCnt, nodes, mempNodes]
  rw [hEq]
  have hNone {x : Nat} (hx : x ∈ ([] : List Nat)) : False := List.not_mem_nil hx
  refine ⟨?_, ?_, ?_, ?_, ?_, fun x hx => (hNone hx).elim, fun x hx => (hNone hx).elim,
    fun x hx => (hNone hx).elim, fun x hx => (hNone hx).elim⟩
  · refine List.isChain_cons.mpr ⟨?_, hNodes ▸ linked_linkMempNodes hLoop⟩
    intro y hy
    rw [hNodes, List.range'_succ, List.cons_append, List.head?_cons, Option.mem_some_iff] at hy
    rw [← hy]
    exact (word_linkMempNodes hLoop (by simp only [mempFree]; omega)).trans hFirst
  · exact (word_linkMempNodes hLoop (by omega)).trans hTotal
  · rw [p.length_nodes]
    exact (word_linkMempNodes hLoop (by omega)).trans hCount
  · rw [PoolRun.start, List.append_nil]
  · rw [hNodes]
    exact dosMemp_linkMempNodes (by omega) hLoop

theorem run {events : List PoolEvent} {r' : PoolRun} (h : p.Holds r free)
    (hRun : Runs (poolStep p.memp p.blkSize) r events r') : ∃ free', p.Holds r' free' := by
  refine hRun.invariant (fun r => ∃ free, p.Holds r free) ⟨free, h⟩ ?_
  rintro s event s' ⟨free, hFree⟩ - hStep
  exact hFree.step hStep

/-- The free nodes are those that are not handed out. -/
theorem mem_free (h : p.Holds r free) :
    x ∈ free ↔ x ∈ p.nodes ∧ x + sizeofMempNode ∉ r.live := by
  refine ⟨fun hx => ⟨h.free_node hx, h.not_live hx⟩, ?_⟩
  rintro ⟨hx, hIdle⟩
  exact (h.mem_free_or_live hx).resolve_right hIdle

/-- A live block is the one behind a node. -/
theorem exists_node (h : p.Holds r free) {ptr : Nat} (hPtr : ptr ∈ r.live) :
    ∃ x ∈ p.nodes, ptr = x + sizeofMempNode := h.issued ptr (h.live ptr hPtr)

theorem live_apart (h : p.Holds r free) :
    r.live.Pairwise fun ptr ptr' => ptr + p.blkSize ≤ ptr' ∨ ptr' + p.blkSize ≤ ptr := by
  refine (List.nodup_append.mp h.nodup).2.1.imp_of_mem ?_
  intro ptr ptr' hPtr hPtr' hNe
  obtain ⟨x, hx, rfl⟩ := h.exists_node hPtr
  obtain ⟨y, hy, rfl⟩ := h.exists_node hPtr'
  have hApart := p.apart hx hy fun hEq => hNe (by rw [hEq])
  omega

/-- An allocation fails when no node is free. -/
theorem alloc_eq_zero (h : p.Holds r free) :
    (r.mem.dosMempAlloc p.memp).2 = 0 ↔ r.live.length = r.mem.mempTotalCount p.memp := by
  have hLength := h.length
  rw [h.total]
  cases free with
  | nil =>
      rw [h.alloc_empty]
      simpa using hLength
  | cons node rest =>
      obtain ⟨mem', hAlloc, -⟩ := h.alloc
      rw [hAlloc, List.length_cons] at *
      simp only [sizeofMempNode]
      omega

end Holds

end Pool

/-- `dos_memp_create` makes a pool with free nodes only. -/
theorem pool_of_create {mem mem₀ : Memory} {block memp mempSize blkSize : Nat}
    (hCreate : mem.dosMempCreate block mempSize blkSize = (mem₀, memp)) (hMemp : memp ≠ 0)
    (hFits : memp + mempBytes mempSize blkSize ≤ 2 ^ 32) :
    ∃ p : Pool, p.memp = memp ∧ p.mempCnt = mempSize / blkSize ∧ p.blkSize = blkSize ∧
      p.Holds (PoolRun.start mem₀) p.nodes := by
  unfold Memory.dosMempCreate at hCreate
  split at hCreate
  · exact absurd (congrArg Prod.snd hCreate).symm hMemp
  · rename_i hValid
    split at hCreate
    · exact absurd (congrArg Prod.snd hCreate).symm hMemp
    · rw [Prod.mk.injEq] at hCreate
      obtain ⟨rfl, rfl⟩ := hCreate
      rw [not_or, not_or] at hValid
      have hBlk : 0 < blkSize := Nat.pos_of_ne_zero hValid.1
      have hCnt : 0 < mempSize / blkSize := Nat.div_pos (by omega) hBlk
      have hSize := Nat.div_mul_le_self mempSize blkSize
      have hPool : block + sizeofMemp + mempSize / blkSize * (sizeofMempNode + blkSize) ≤
          2 ^ 32 := by
        rw [mempBytes, Nat.mul_comm sizeofMempNode] at hFits
        rw [Nat.mul_add]
        omega
      have hBase : (block + sizeofMemp) % 2 ^ 32 = block + sizeofMemp := by
        apply Nat.mod_eq_of_lt
        have hRows := Nat.mul_pos hCnt (Nat.add_pos_left (by decide : 0 < sizeofMempNode) blkSize)
        omega
      rw [hBase]
      exact ⟨⟨block, mempSize / blkSize, blkSize, Nat.pos_of_ne_zero hMemp, hCnt, hBlk, hPool⟩,
        rfl, rfl, rfl, Pool.Holds.init _ mem mempSize⟩

/-- A pool over every sequence of calls and of writes into its blocks. The free
list ends and has each free node once, as many as `memp_free_count` says; the
free nodes are those whose block is not live; live blocks are disjoint and
inside the pool; an allocation fails only when all blocks are live; and a
block that is not live is not freed again. -/
theorem pool_partition {mem mem₀ : Memory} {block memp mempSize blkSize : Nat}
    {events : List PoolEvent} {r : PoolRun}
    (hCreate : mem.dosMempCreate block mempSize blkSize = (mem₀, memp)) (hMemp : memp ≠ 0)
    (hFits : memp + mempBytes mempSize blkSize ≤ 2 ^ 32)
    (hRun : Runs (poolStep memp blkSize) (PoolRun.start mem₀) events r) :
    (∃ free, Linked r.mem.next (mempFree memp :: (free ++ [0])) ∧ free.Nodup ∧
      free.length = r.mem.mempFreeCount memp ∧
      ∀ node, node ∈ free ↔
        node ∈ mempNodes memp (mempSize / blkSize) blkSize ∧ node + sizeofMempNode ∉ r.live) ∧
    (r.live.Pairwise fun ptr ptr' => ptr + blkSize ≤ ptr' ∨ ptr' + blkSize ≤ ptr) ∧
    (∀ ptr ∈ r.live, memp + sizeofMemp + sizeofMempNode ≤ ptr ∧
      ptr + blkSize ≤ memp + mempBytes mempSize blkSize) ∧
    r.mem.mempTotalCount memp = mempSize / blkSize ∧
    ((r.mem.dosMempAlloc memp).2 = 0 ↔ r.live.length = r.mem.mempTotalCount memp) ∧
    ∀ ptr ∈ r.issued, ptr ∉ r.live → r.mem.dosMempFree ptr = r.mem := by
  obtain ⟨p, rfl, hCnt, rfl, hInit⟩ := pool_of_create hCreate hMemp hFits
  obtain ⟨free, h⟩ := hInit.run hRun
  refine ⟨⟨free, h.linked, h.nodup_free, h.count.symm, ?_⟩, h.live_apart, ?_, ?_,
    h.alloc_eq_zero, fun ptr => h.free_idle⟩
  · intro node
    rw [← hCnt]
    exact h.mem_free
  · intro ptr hPtr
    obtain ⟨x, hx, rfl⟩ := h.exists_node hPtr
    have hAbove := p.above hx
    have hBelow := p.below hx
    have hSize := Nat.div_mul_le_self mempSize p.blkSize
    rw [Nat.mul_add, hCnt, Nat.mul_comm _ sizeofMempNode] at hBelow
    rw [mempBytes]
    omega
  · rw [h.total, hCnt]

/-- Three blocks of six bytes in memory that held other data. The first block is
freed twice, is written to, and is handed out again. -/
theorem pool_partition_six :
    let made := Memory.dosMempCreate (fun _ => 0xA5) 4096 20 6
    let step := poolStep 4096 6
    let events : List PoolEvent :=
      [.alloc, .alloc, .free 4136, .free 4136, .write 4136 5 0xFF, .alloc, .alloc]
    ∃ r, Runs step (PoolRun.start made.1) events r ∧ r.live = [4172, 4136, 4154] ∧
      (r.mem.dosMempAlloc 4096).2 = 0 := by
  intro made step events
  have hLive : (exec step (PoolRun.start made.1) events).map PoolRun.live =
      some [4172, 4136, 4154] := by decide +kernel
  have hCreate : Memory.dosMempCreate (fun _ => 0xA5) 4096 20 6 = (made.1, 4096) :=
    Prod.ext rfl (by decide +kernel)
  obtain ⟨r, hExec, hLive⟩ := Option.map_eq_some_iff.mp hLive
  have hRun := runs_of_exec hExec
  obtain ⟨-, -, -, hTotal, hNull, -⟩ :=
    pool_partition hCreate (by decide) (by decide +kernel) hRun
  refine ⟨r, hRun, hLive, hNull.mpr ?_⟩
  rw [hLive, hTotal]
  rfl

end DoraOS
