import Mathlib.Data.Nat.Basic
import Mathlib.Algebra.Group.Nat.Defs

/-! The heap of `mem/mem.c`. Its information block and the headers of its nodes
live in the managed memory itself, as words at word-aligned addresses of the
32-bit target. Loops take fuel and give no result when it runs out. -/
namespace DoraOS

def dosAlign (addr : Nat) : Nat := (addr + 3) % 2 ^ 32 / 4 * 4

def dosAlignDown (addr : Nat) : Nat := addr / 4 * 4

/-- `sizeof(struct dos_mem_heap_info)`. -/
def memInfoSize : Nat := 16

/-- `sizeof(struct dos_mem_heap_node)`. -/
def memNodeSize : Nat := 8

namespace NodeWord

/-- The bit-fields behind `prev` in `struct dos_mem_heap_node`: 30 bits of
`mem_node_size`, then `mem_used` and `mem_align`. -/
def size (word : Nat) : Nat := word % 2 ^ 30
def used (word : Nat) : Nat := word / 2 ^ 30 % 2
def align (word : Nat) : Nat := word / 2 ^ 31 % 2

/-- The word with these fields, each cut to its width. -/
def pack (size used align : Nat) : Nat := size % 2 ^ 30 + used % 2 * 2 ^ 30 + align % 2 * 2 ^ 31

@[simp] theorem size_pack (n u l : Nat) : size (pack n u l) = n % 2 ^ 30 := by
  unfold size pack
  omega

@[simp] theorem used_pack (n u l : Nat) : used (pack n u l) = u % 2 := by
  unfold used pack
  omega

@[simp] theorem align_pack (n u l : Nat) : align (pack n u l) = l % 2 := by
  unfold align pack
  omega

end NodeWord

/-- The managed memory with the two static pointers to its bounds. -/
structure Heap where
  mem : Nat → Nat
  alignMemHeapBegin : Nat
  alignMemHeapEnd : Nat

namespace Heap

variable (h : Heap)

def write (addr word : Nat) : Heap := { h with mem := fun a => if a = addr then word else h.mem a }

/-- `memset` of `n` bytes to zero. -/
def memset (addr n : Nat) : Heap :=
  { h with mem := fun a => if addr ≤ a ∧ a < addr + n then 0 else h.mem a }

/-- The fields of `struct dos_mem_heap_info`, but for `mem_heap_addr`. -/
def memHeapSize : Nat := h.mem (h.alignMemHeapBegin + 4)
def memHead : Nat := h.mem (h.alignMemHeapBegin + 8)
def memTail : Nat := h.mem (h.alignMemHeapBegin + 12)

def setMemHeapSize (size : Nat) : Heap := h.write (h.alignMemHeapBegin + 4) (size % 2 ^ 32)
def setMemHead (node : Nat) : Heap := h.write (h.alignMemHeapBegin + 8) node
def setMemTail (node : Nat) : Heap := h.write (h.alignMemHeapBegin + 12) node

/-- The fields of the `struct dos_mem_heap_node` at `node`. -/
def prev (node : Nat) : Nat := h.mem node
def nodeSize (node : Nat) : Nat := NodeWord.size (h.mem (node + 4))
def used (node : Nat) : Nat := NodeWord.used (h.mem (node + 4))
def align (node : Nat) : Nat := NodeWord.align (h.mem (node + 4))

def userMem (node : Nat) : Nat := node + memNodeSize

def setPrev (node prev : Nat) : Heap := h.write node prev

def setNodeSize (node size : Nat) : Heap :=
  h.write (node + 4) (NodeWord.pack size (h.used node) (h.align node))

def setUsed (node used : Nat) : Heap :=
  h.write (node + 4) (NodeWord.pack (h.nodeSize node) used (h.align node))

def setAlign (node align : Nat) : Heap :=
  h.write (node + 4) (NodeWord.pack (h.nodeSize node) (h.used node) align)

/-- More than the number of node headers that fit into the heap. -/
def fuel : Nat := (h.alignMemHeapEnd - h.alignMemHeapBegin) / memNodeSize + 1

/-- The address `node->user_mem + node->mem_node_size`. -/
def nodeEnd (node : Nat) : Nat := (userMem node + h.nodeSize node) % 2 ^ 32

def dosGetNextNode (node : Nat) : Nat := if h.memTail = node then 0 else h.nodeEnd node

/-- The search loop of `dos_mem_alloc` from `memNode` on. Its early exit is
behind a test for a node that is larger than `size`. -/
def findBestNode (size : Nat) : Nat → Nat → Nat → Option Nat
  | 0, _, _ => none
  | fuel + 1, memNode, bestNode =>
      if memNode = 0 then some bestNode
      else if h.used memNode = 0 ∧ h.nodeSize memNode > size ∧
          (bestNode = 0 ∨ h.nodeSize bestNode > h.nodeSize memNode) then
        if h.nodeSize memNode = size then some memNode
        else findBestNode size fuel (h.prev memNode) memNode
      else findBestNode size fuel (h.prev memNode) bestNode

/-- The node that `dos_mem_alloc` takes for an aligned size, or `DOS_NULL`. -/
def bestNode (size : Nat) : Option Nat := h.findBestNode size h.fuel h.memTail 0

/-- A new free node behind the first `size` bytes of `bestNode`. -/
def cutNode (bestNode size : Nat) : Heap :=
  let memNode := (userMem bestNode + size) % 2 ^ 32
  let h₁ := ((h.setUsed memNode 0).setNodeSize memNode
    (h.nodeSize bestNode - size - memNodeSize)).setPrev memNode bestNode
  if bestNode ≠ h₁.memTail then
    let node := h₁.dosGetNextNode memNode
    if node ≠ 0 then h₁.setPrev node memNode else h₁
  else h₁.setMemTail memNode

/-- What `dos_mem_alloc` does from `FIND_BEST_MEM` on. -/
def takeNode (bestNode size : Nat) : Heap :=
  let h₁ := ((h.setAlign bestNode 0).setUsed bestNode 1).setNodeSize bestNode size
  h₁.setMemHeapSize (h₁.memHeapSize + (2 ^ 32 - size))

/-- `dos_mem_alloc`, with `DOS_NULL` as zero. -/
def dosMemAlloc (size : Nat) : Option (Heap × Nat) :=
  if h.alignMemHeapBegin = 0 then some (h, 0)
  else
    let size := dosAlign size
    (h.bestNode size).map fun bestNode =>
      if bestNode = 0 then (h, 0)
      else
        let h₁ := if h.nodeSize bestNode - size > memNodeSize then h.cutNode bestNode size else h
        (h₁.takeNode bestNode size, userMem bestNode)

/-- The first loop of `dos_mem_free`: back to the first of the free nodes in
front of `freeNode`. -/
def firstFree : Nat → Nat → Option Nat
  | 0, _ => none
  | fuel + 1, freeNode =>
      if h.prev freeNode ≠ 0 ∧ h.used (h.prev freeNode) = 0 then firstFree fuel (h.prev freeNode)
      else some freeNode

/-- `freeNode` takes in the free `node` behind it. -/
def mergeNode (freeNode node : Nat) : Heap :=
  let h₁ := h.setNodeSize freeNode (h.nodeSize freeNode + (memNodeSize + h.nodeSize node))
  if node = h₁.memTail then h₁.setMemTail freeNode else h₁

/-- The second loop of `dos_mem_free`: merge with the free nodes behind. -/
def mergeNext : Nat → Heap → Nat → Option Heap
  | 0, _, _ => none
  | fuel + 1, h, freeNode =>
      let node := h.dosGetNextNode freeNode
      if node ≠ 0 ∧ h.used node = 0 then mergeNext fuel (h.mergeNode freeNode node) freeNode
      else some h

/-- `dos_mem_free`; the result tells whether it returns `DOS_OK`. -/
def dosMemFree (mem : Nat) : Option (Heap × Bool) :=
  if mem = 0 then some (h, false)
  else if h.alignMemHeapBegin = 0 then some (h, false)
  else
    let freeNode := (mem + (2 ^ 32 - memNodeSize)) % 2 ^ 32
    if h.used freeNode = 0 then some (h, false)
    else do
      let h₁ := h.setUsed freeNode 0
      let h₂ := h₁.setMemHeapSize (h₁.memHeapSize + h₁.nodeSize freeNode)
      let first ← h₂.firstFree h₂.fuel freeNode
      let h₃ ← mergeNext h₂.fuel h₂ first
      let node := h₃.dosGetNextNode first
      some (if node ≠ 0 then h₃.setPrev node first else h₃, true)

/-- The information block and the one free node of a heap of `size` bytes. -/
def initNodes (size : Nat) : Heap :=
  let h₁ := ((h.write h.alignMemHeapBegin h.alignMemHeapBegin).setMemHeapSize
    (size - memInfoSize - memNodeSize)).setMemHead (h.alignMemHeapBegin + memInfoSize)
  let memheapNode := h₁.memHead
  let h₂ := (h₁.setMemTail memheapNode).setUsed memheapNode 0
  (h₂.setNodeSize memheapNode h₂.memHeapSize).setPrev memheapNode 0

/-- `dos_mem_heap_init` of the array `_mem_heap` of `heapSize` bytes. The two
static pointers are set even when it returns `DOS_FALSE`. -/
def dosMemHeapInit (mem : Nat → Nat) (memHeap heapSize : Nat) : Heap × Bool :=
  let heapBegin := dosAlign memHeap
  let heapEnd := dosAlignDown ((memHeap + heapSize) % 2 ^ 32)
  let alignMemheapSize := (heapEnd + (2 ^ 32 - heapBegin)) % 2 ^ 32
  let h : Heap := { mem := mem, alignMemHeapBegin := heapBegin, alignMemHeapEnd := heapEnd }
  if heapBegin = 0 ∨ alignMemheapSize ≤ memInfoSize + memNodeSize then (h, false)
  else ((h.memset heapBegin alignMemheapSize).initNodes alignMemheapSize, true)

end Heap

end DoraOS
