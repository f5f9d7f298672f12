import DoraOS.Library.Runs
import DoraOS.Memory.Owned

/-! Runs of the heap. Callers allocate, free what they hold and write to it.
Nothing is lost as long as every allocation cuts the node it takes. -/
namespace DoraOS

open Segments

/-- The heap with the pointers that were returned and not freed yet. -/
structure HeapRun where
  heap : Heap
  live : List Nat

inductive HeapEvent where
  | alloc (size : Nat)
  | free (mem : Nat)
  | store (mem offset word : Nat)

def Heap.userSize (h : Heap) (mem : Nat) : Nat := h.nodeSize (mem - memNodeSize)

/-- A call of `dos_mem_alloc` that returns, one of `dos_mem_free` on a live
block, or a word written to the user area of a live block. -/
def heapStep (x : HeapRun) : HeapEvent → Option HeapRun
  | .alloc size =>
      (x.heap.dosMemAlloc size).map fun r =>
        { heap := r.1, live := if r.2 = 0 then x.live else r.2 :: x.live }
  | .free mem =>
      if mem ∈ x.live then
        (x.heap.dosMemFree mem).map fun r => { heap := r.1, live := x.live.erase mem }
      else none
  | .store mem offset word =>
      if mem ∈ x.live ∧ offset + 4 ≤ x.heap.userSize mem ∧ offset % 4 = 0 then
        some { x with heap := x.heap.write (mem + offset) word }
      else none

/-- The node that an allocation takes is cut. -/
def CutsNode (x : HeapRun) : HeapEvent → Prop
  | .alloc size => x.heap.Cuts size
  | _ => True

instance (x : HeapRun) : ∀ event, Decidable (CutsNode x event)
  | .alloc size => inferInstanceAs (Decidable (x.heap.Cuts size))
  | .free _ => inferInstanceAs (Decidable True)
  | .store .. => inferInstanceAs (Decidable True)

namespace Heap

/-- The node that is reached from `MemHead` after so many moves to
`user_mem + mem_node_size`. -/
def walk (h : Heap) : Nat → Nat
  | 0 => h.memHead
  | n + 1 => h.nodeEnd (h.walk n)

/-- The node headers tile the heap: the walk reaches `mem_tail`, whose user
area ends with the heap, and every `prev` is the node before. -/
def TilesHeap (h : Heap) : Prop :=
  ∃ n, h.walk n = h.memTail ∧ h.nodeEnd h.memTail = h.alignMemHeapEnd ∧
    (∀ i ≤ n, userMem (h.walk i) + h.nodeSize (h.walk i) ≤ h.alignMemHeapEnd) ∧
    h.prev (h.walk 0) = 0 ∧ ∀ i < n, h.prev (h.walk (i + 1)) = h.walk i

/-- The user areas at two pointers, with a header between them. -/
def Apart (h : Heap) (p q : Nat) : Prop :=
  p + h.userSize p + memNodeSize ≤ q ∨ q + h.userSize q + memNodeSize ≤ p

variable {h h' : Heap} {b : Block} {xs ys bs : List Block}

section Walk

theorem Tiled.walk (hTiled : h.Tiled (xs ++ b :: ys)) : h.walk xs.length = h.place xs := by
  induction xs using List.reverseRecOn generalizing b ys with
  | nil =>
      have hHead := hTiled.framed.head
      simpa [Heap.walk, place] using hHead
  | append_singleton xs x ih =>
      rw [List.append_assoc, List.singleton_append] at hTiled
      rw [List.length_append, List.length_singleton, Heap.walk, ih hTiled, hTiled.focus.nodeEnd,
        place_snoc]

theorem exists_split_at {i : Nat} (hi : i < bs.length) :
    ∃ ys c zs, bs = ys ++ c :: zs ∧ ys.length = i := by
  refine ⟨bs.take i, bs[i], bs.drop (i + 1), ?_, ?_⟩
  · rw [← List.drop_eq_getElem_cons hi, List.take_append_drop]
  · rw [List.length_take, Nat.min_eq_left (Nat.le_of_lt hi)]

theorem Tiled.walk_end (hTiled : h.Tiled bs) {i : Nat} (hi : i < bs.length) :
    userMem (h.walk i) + h.nodeSize (h.walk i) ≤ h.alignMemHeapEnd := by
  obtain ⟨ys, c, zs, rfl, rfl⟩ := exists_split_at hi
  have hBounds := hTiled.focus.bounds
  rw [hTiled.walk, hTiled.focus.node.size, userMem, memNodeSize]
  rw [Block.span_eq] at hBounds
  omega

theorem Tiled.walk_first (hTiled : h.Tiled bs) : h.prev (h.walk 0) = 0 := by
  cases bs with
  | nil => exact absurd rfl hTiled.nonempty
  | cons c zs =>
      have hFirst : h.Tiled ([] ++ c :: zs) := hTiled
      have hWalk : h.walk 0 = h.place [] := hFirst.walk
      rw [hWalk, hFirst.focus.node.prev, lastStart_nil]

theorem Tiled.walk_prev (hTiled : h.Tiled bs) {i : Nat} (hi : i + 1 < bs.length) :
    h.prev (h.walk (i + 1)) = h.walk i := by
  obtain ⟨ys, c, zs, rfl, hLength⟩ := exists_split_at hi
  cases ys using List.reverseRecOn with
  | nil => simp at hLength
  | append_singleton ys d =>
      rw [List.length_append, List.length_singleton] at hLength
      have hPrev : h.prev (h.walk (ys ++ [d]).length) = h.place ys := by
        rw [hTiled.walk, hTiled.focus.node.prev, lastStart_snoc, place]
      rw [List.length_append, List.length_singleton, hLength] at hPrev
      rw [List.append_assoc, List.singleton_append] at hTiled
      rw [hPrev, ← hTiled.walk, Nat.succ.inj hLength]

theorem Tiled.tilesHeap (hTiled : h.Tiled bs) : h.TilesHeap := by
  obtain ⟨xs, b, rfl⟩ : ∃ xs b, bs = xs ++ [b] :=
    ⟨_, _, (List.dropLast_append_getLast hTiled.nonempty).symm⟩
  have hFocus := hTiled.focus
  have hTail : h.memTail = h.place xs := hFocus.tail
  have hLength : (xs ++ [b]).length = xs.length + 1 := by simp
  refine ⟨xs.length, hTiled.walk.trans hTail.symm, hTiled.nodeEnd_tail, ?_, ?_, ?_⟩
  · intro i hi
    exact hTiled.walk_end (by omega)
  · exact hTiled.walk_first
  · intro i hi
    exact hTiled.walk_prev (by omega)

end Walk

end Heap

namespace Block

def live (a : Nat) (bs : List Block) : List Nat :=
  ((located span a bs).filter fun l => l.2.used).map fun l => Heap.userMem l.1

theorem live_eq (a : Nat) (bs : List Block) : live a bs = (areas a bs).map Prod.fst := by
  rw [live, areas, List.map_map]
  rfl

end Block

namespace Heap

variable {h : Heap} {b : Block} {xs ys bs : List Block}

theorem exists_of_mem_live {mem : Nat} (hMem : mem ∈ Block.live h.firstNode bs) :
    ∃ xs b ys, bs = xs ++ b :: ys ∧ b.used = true ∧ mem = userMem (h.place xs) := by
  obtain ⟨l, hl, rfl⟩ := List.mem_map.mp hMem
  obtain ⟨hLocated, hUsed⟩ := List.mem_filter.mp hl
  obtain ⟨xs, ys, hSplit, hAddr⟩ := mem_located.mp hLocated
  exact ⟨xs, l.2, ys, hSplit, hUsed, by rw [hAddr, place]⟩

theorem userSize_place (hNode : h.NodeAt p a b) : h.userSize (userMem a) = b.size := by
  rw [userSize, userMem, Nat.add_sub_cancel, hNode.size]

/-- The user areas of the used blocks are apart. -/
theorem Tiled.live_apart (hTiled : h.Tiled bs) : (Block.live h.firstNode bs).Pairwise h.Apart := by
  rw [Block.live, List.pairwise_map]
  refine List.Pairwise.filter _ (List.Pairwise.imp_of_mem ?_ located_pairwise)
  intro l r hl hr hBefore
  obtain ⟨q, hNode⟩ := hTiled.chain.of_located hl
  left
  rw [userSize_place hNode, userMem, userMem]
  rw [Block.span] at hBefore
  omega

/-- The user area of a used block is inside the heap. -/
theorem Tiled.live_inside (hTiled : h.Tiled bs) {mem : Nat}
    (hMem : mem ∈ Block.live h.firstNode bs) :
    userMem h.memHead ≤ mem ∧ mem + h.userSize mem ≤ h.alignMemHeapEnd := by
  obtain ⟨xs, b, ys, rfl, hUsed, rfl⟩ := exists_of_mem_live hMem
  have hBounds := hTiled.focus.bounds
  have hSpan := b.span_eq
  rw [userSize_place hTiled.focus.node, hTiled.framed.head, userMem, userMem, memNodeSize]
  rw [place] at hBounds ⊢
  omega

theorem Laid.dosMemAlloc_isSome (hLaid : h.Laid bs) (size : Nat) :
    (h.dosMemAlloc size).isSome = true := by
  obtain ⟨best, hBest, -⟩ := hLaid.bestNode (dosAlign size)
  rw [hLaid.dosMemAlloc_eq hBest, Option.isSome_some]

section Init

/-- The heap with its information block written. -/
def initInfo (h : Heap) (size : Nat) : Heap :=
  (((h.write h.alignMemHeapBegin h.alignMemHeapBegin).setMemHeapSize
    (size - memInfoSize - memNodeSize)).setMemHead h.firstNode).setMemTail h.firstNode

theorem initInfo_memHead (size : Nat) : (h.initInfo size).memHead = h.firstNode :=
  (mem_write_of_ne (show h.alignMemHeapBegin + 8 ≠ h.alignMemHeapBegin + 12 by omega)).trans
    mem_write_self

theorem initInfo_memHeapSize (size : Nat) :
    (h.initInfo size).memHeapSize = (size - memInfoSize - memNodeSize) % 2 ^ 32 :=
  (mem_write_of_ne (show h.alignMemHeapBegin + 4 ≠ h.alignMemHeapBegin + 12 by omega)).trans
    ((mem_write_of_ne (show h.alignMemHeapBegin + 4 ≠ h.alignMemHeapBegin + 8 by omega)).trans
      mem_write_self)

theorem initNodes_eq (size : Nat) : h.initNodes size =
    ((((h.initInfo size).setUsed h.firstNode 0).setNodeSize h.firstNode
      ((size - memInfoSize - memNodeSize) % 2 ^ 32)).setPrev h.firstNode 0) := by
  have hHead : (((h.write h.alignMemHeapBegin h.alignMemHeapBegin).setMemHeapSize
      (size - memInfoSize - memNodeSize)).setMemHead (h.alignMemHeapBegin + memInfoSize)).memHead =
      h.firstNode := mem_write_self
  have hSize : ((h.initInfo size).setUsed h.firstNode 0).memHeapSize =
      (size - memInfoSize - memNodeSize) % 2 ^ 32 := by
    rw [← initInfo_memHeapSize]
    refine mem_write_of_ne ?_
    show h.alignMemHeapBegin + 4 ≠ h.alignMemHeapBegin + 16 + 4
    omega
  simp only [initNodes, hHead]
  rw [← hSize]
  rfl

theorem initNodes_mem_info {size x : Nat} (hx : x < h.firstNode) :
    (h.initNodes size).mem x = (h.initInfo size).mem x := by
  rw [initNodes_eq, setPrev, mem_write_of_ne (by omega), setNodeSize, mem_write_of_ne (by omega),
    setUsed, mem_write_of_ne (by omega)]

theorem initNodes_memHeapSize (size : Nat) :
    (h.initNodes size).memHeapSize = (size - memInfoSize - memNodeSize) % 2 ^ 32 := by
  have hBegin : (h.initNodes size).alignMemHeapBegin = h.alignMemHeapBegin := by
    rw [initNodes_eq]
    rfl
  have hFirst : h.firstNode = h.alignMemHeapBegin + 16 := rfl
  rw [memHeapSize, hBegin, initNodes_mem_info (by omega)]
  exact initInfo_memHeapSize size

/-- An initialised heap is one free block. -/
theorem initNodes_tiled {size : Nat} (hPos : 0 < h.alignMemHeapBegin)
    (hAligned : h.alignMemHeapBegin % 4 = 0) (hEnd : h.alignMemHeapBegin + size = h.alignMemHeapEnd)
    (hWord : size % 4 = 0) (hLow : memInfoSize + memNodeSize < size)
    (hHigh : size < 2 ^ 30 + memInfoSize + memNodeSize) (hLt : h.alignMemHeapEnd < 2 ^ 32) :
    ∃ b : Block, b.used = false ∧ (h.initNodes size).Tiled [b] := by
  have hFirst : h.firstNode = h.alignMemHeapBegin + 16 := rfl
  simp only [memInfoSize, memNodeSize] at hLow hHigh
  refine ⟨⟨size - memInfoSize - memNodeSize, false, ?_⟩, rfl, ?_⟩
  · simp only [memInfoSize, memNodeSize]
    omega
  have hSmall : (size - memInfoSize - memNodeSize) % 2 ^ 32 = size - memInfoSize - memNodeSize :=
    Nat.mod_eq_of_lt (by simp only [memInfoSize, memNodeSize]; omega)
  have hSame : h.SameBounds (h.initNodes size) := by
    rw [initNodes_eq]
    exact ⟨rfl, rfl⟩
  have hTotal : total Block.span [(⟨size - memInfoSize - memNodeSize, false, by
      simp only [memInfoSize, memNodeSize]; omega⟩ : Block)] = size - memInfoSize := by
    simp only [total_cons, total_nil, Block.span_eq, memInfoSize, memNodeSize]
    omega
  refine ⟨⟨⟨?_, ?_, ?_, ?_, ?_⟩, ?_, ⟨?_, trivial⟩, ?_⟩, ?_⟩
  · rwa [hSame.heapBegin]
  · rwa [hSame.heapBegin]
  · rw [memHead, hSame.heapBegin, initNodes_mem_info (by omega), hSame.firstNode]
    exact initInfo_memHead size
  · rw [hTotal, hSame.firstNode, hSame.heapEnd, hFirst, memInfoSize]
    omega
  · rwa [hSame.heapEnd]
  · simp
  · rw [hSame.firstNode, initNodes_eq, hSmall]
    exact nodeAt_header rfl (by simp only [memInfoSize, memNodeSize]; omega) rfl
  · rw [memTail, hSame.heapBegin, initNodes_mem_info (by omega), hSame.firstNode]
    exact mem_write_self
  · rw [hTotal, memInfoSize, memNodeSize]
    omega

theorem dosMemHeapInit_tiled {mem : Nat → Nat} {memHeap heapSize : Nat}
    (hOk : (dosMemHeapInit mem memHeap heapSize).2 = true)
    (hSize : (dosMemHeapInit mem memHeap heapSize).1.memHeapSize < 2 ^ 30)
    (hArray : memHeap + heapSize < 2 ^ 32) :
    ∃ b : Block, b.used = false ∧ (dosMemHeapInit mem memHeap heapSize).1.Tiled [b] := by
  have hBegin : dosAlign memHeap % 4 = 0 := dosAlign_mod memHeap
  have hEnd : dosAlignDown ((memHeap + heapSize) % 2 ^ 32) % 4 = 0 := Nat.mul_mod_left _ 4
  have hHigh : dosAlignDown ((memHeap + heapSize) % 2 ^ 32) < 2 ^ 32 := by
    unfold dosAlignDown
    omega
  have hNear : dosAlign memHeap < dosAlignDown ((memHeap + heapSize) % 2 ^ 32) + 7 := by
    unfold dosAlign dosAlignDown
    omega
  unfold dosMemHeapInit at hOk hSize ⊢
  simp only at hOk hSize ⊢
  by_cases hFails : dosAlign memHeap = 0 ∨
      (dosAlignDown ((memHeap + heapSize) % 2 ^ 32) + (2 ^ 32 - dosAlign memHeap)) % 2 ^ 32 ≤
        memInfoSize + memNodeSize
  · rw [if_pos hFails] at hOk
    cases hOk
  · rw [if_neg hFails] at hSize ⊢
    simp only [initNodes_memHeapSize] at hSize
    simp only [not_or, memInfoSize, memNodeSize] at hFails hSize
    generalize dosAlign memHeap = heapBegin at *
    generalize dosAlignDown ((memHeap + heapSize) % 2 ^ 32) = heapEnd at *
    have hDiff : heapBegin + (heapEnd + (2 ^ 32 - heapBegin)) % 2 ^ 32 = heapEnd := by omega
    refine initNodes_tiled (Nat.pos_of_ne_zero hFails.1) hBegin hDiff ?_ ?_ ?_ hHigh
    · omega
    · simp only [memInfoSize, memNodeSize]
      omega
    · simp only [memInfoSize, memNodeSize]
      omega

end Init

end Heap

/-- The heap of a run is tiled by blocks, of which the used ones are live. -/
structure HeapOk (h : Heap) (x : HeapRun) (bs : List Block) : Prop where
  tiled : x.heap.Tiled bs
  same : h.SameBounds x.heap
  live : x.live.Perm (Block.live x.heap.firstNode bs)

namespace HeapOk

variable {h : Heap} {x x' : HeapRun} {bs : List Block}

/-- The run owns the user areas of the used blocks. -/
theorem owns (hInv : HeapOk h x bs) : x.heap.Owns bs (Block.areas x.heap.firstNode bs) :=
  ⟨hInv.tiled, List.Perm.rfl⟩

theorem of_owns {owned : List (Nat × Nat)} (hOwns : x.heap.Owns bs owned)
    (hSame : h.SameBounds x.heap) (hLive : x.live.Perm (owned.map Prod.fst)) : HeapOk h x bs where
  tiled := hOwns.tiled
  same := hSame
  live := by
    rw [Block.live_eq]
    exact hLive.trans (hOwns.areas.map _)

/-- A live pointer with its size. -/
theorem area_of_live {mem : Nat} (hInv : HeapOk h x bs) (hMem : mem ∈ x.live) :
    ∃ size, (mem, size) ∈ Block.areas x.heap.firstNode bs := by
  have hLive := hInv.live.mem_iff.mp hMem
  rw [Block.live_eq, List.mem_map] at hLive
  obtain ⟨⟨p, size⟩, hArea, rfl⟩ := hLive
  exact ⟨size, hArea⟩

theorem alloc {size : Nat} (hInv : HeapOk h x bs) (hCuts : CutsNode x (.alloc size))
    (hStep : heapStep x (.alloc size) = some x') : ∃ bs', HeapOk h x' bs' := by
  simp only [heapStep] at hStep
  rcases hInv.owns.alloc hCuts with hNull | ⟨h', bs', p, hAlloc, hGranted⟩
  · rw [hNull] at hStep
    have hEq : x = x' := by simpa using hStep
    exact ⟨bs, hEq ▸ hInv⟩
  · rw [hAlloc, Option.map_some, if_neg hGranted.nonnull] at hStep
    rw [← Option.some.inj hStep]
    have hLive := hInv.live
    rw [Block.live_eq] at hLive
    exact ⟨bs', of_owns hGranted.owns (hInv.same.trans hGranted.same) (hLive.cons p)⟩

theorem free {mem : Nat} (hInv : HeapOk h x bs) (hStep : heapStep x (.free mem) = some x') :
    ∃ bs', HeapOk h x' bs' := by
  simp only [heapStep, Option.ite_none_right_eq_some] at hStep
  obtain ⟨hMem, hStep⟩ := hStep
  obtain ⟨size, hArea⟩ := hInv.area_of_live hMem
  have hPerm := List.perm_cons_erase hArea
  obtain ⟨h', bs', hFree, hReleased⟩ := (hInv.owns.perm hPerm.symm).free
  rw [hFree, Option.map_some] at hStep
  rw [← Option.some.inj hStep]
  refine ⟨bs', of_owns hReleased.owns (hInv.same.trans hReleased.same) ?_⟩
  have hLive := hInv.live
  rw [Block.live_eq] at hLive
  have hErase := (hLive.trans (hPerm.map _)).erase mem
  rwa [List.map_cons, List.erase_cons_head] at hErase

theorem store {mem offset word : Nat} (hInv : HeapOk h x bs)
    (hStep : heapStep x (.store mem offset word) = some x') : ∃ bs', HeapOk h x' bs' := by
  simp only [heapStep, Option.ite_none_right_eq_some] at hStep
  obtain ⟨⟨hMem, hInside, -⟩, hStep⟩ := hStep
  obtain ⟨size, hArea⟩ := hInv.area_of_live hMem
  have hSize : x.heap.userSize mem = size := by
    obtain ⟨xs, b, ys, rfl, -, rfl, rfl⟩ := hInv.owns.split hArea
    exact Heap.userSize_place hInv.tiled.focus.node
  rw [← Option.some.inj hStep]
  have hEdits : x.heap.Edits (x.heap.write (mem + offset) word) mem size :=
    Heap.edits_write (Nat.le_add_right mem offset) (by omega)
  obtain ⟨hOwns, -⟩ := hInv.owns.edit hArea hEdits
  refine ⟨bs, of_owns hOwns (hInv.same.trans Heap.write_bounds) ?_⟩
  rw [← Block.live_eq]
  exact hInv.live

theorem step {event : HeapEvent} (hInv : HeapOk h x bs) (hCuts : CutsNode x event)
    (hStep : heapStep x event = some x') : ∃ bs', HeapOk h x' bs' := by
  cases event with
  | alloc size => exact hInv.alloc hCuts hStep
  | free mem => exact hInv.free hStep
  | store mem offset word => exact hInv.store hStep

end HeapOk

/-- In every run from an initialised heap whose allocations all cut the node
they take, the node headers tile the heap, the live user areas are apart and
inside of it, and the next call returns. -/
theorem heap_stays_tiled {mem : Nat → Nat} {memHeap heapSize : Nat} {events : List HeapEvent}
    {x : HeapRun} (hInit : (Heap.dosMemHeapInit mem memHeap heapSize).2 = true)
    (hSize : (Heap.dosMemHeapInit mem memHeap heapSize).1.memHeapSize < 2 ^ 30)
    (hArray : memHeap + heapSize < 2 ^ 32)
    (hRun : Transition.RunsIf heapStep CutsNode
      ⟨(Heap.dosMemHeapInit mem memHeap heapSize).1, []⟩ events x) :
    x.heap.TilesHeap ∧ x.live.Pairwise x.heap.Apart ∧
      (∀ p ∈ x.live, Heap.userMem x.heap.memHead ≤ p ∧
        p + x.heap.userSize p ≤ x.heap.alignMemHeapEnd) ∧
      (Heap.dosMemHeapInit mem memHeap heapSize).1.SameBounds x.heap ∧
      (∀ size, (x.heap.dosMemAlloc size).isSome = true) ∧
      ∀ p ∈ x.live, ∃ h', x.heap.dosMemFree p = some (h', true) := by
  obtain ⟨b, hFree, hTiled⟩ := Heap.dosMemHeapInit_tiled hInit hSize hArray
  have hStart : HeapOk (Heap.dosMemHeapInit mem memHeap heapSize).1
      ⟨(Heap.dosMemHeapInit mem memHeap heapSize).1, []⟩ [b] := by
    refine ⟨hTiled, .rfl, ?_⟩
    simp [Block.live, hFree]
  obtain ⟨bs, hInv⟩ := hRun.invariant (fun y => ∃ bs, HeapOk _ y bs) ⟨[b], hStart⟩
    fun y event y' hInv hCuts hStep => hInv.elim fun bs hOk => hOk.step hCuts hStep
  refine ⟨hInv.tiled.tilesHeap, ?_, ?_, hInv.same, hInv.tiled.dosMemAlloc_isSome, ?_⟩
  · exact (hInv.live.pairwise_iff fun hApart => hApart.symm).mpr hInv.tiled.live_apart
  · intro p hp
    exact hInv.tiled.live_inside (hInv.live.mem_iff.mp hp)
  · intro p hp
    obtain ⟨xs, c, ys, rfl, hUsed, rfl⟩ := Heap.exists_of_mem_live (hInv.live.mem_iff.mp hp)
    obtain ⟨h', hReturn, -⟩ := hInv.tiled.dosMemFree hUsed hInv.tiled.joined_fits
    exact ⟨h', hReturn⟩

/-- Two blocks of a heap of 128 bytes, of which the first is freed. -/
theorem heap_stays_tiled_freed : ∃ x, Transition.RunsIf heapStep CutsNode
    ⟨(Heap.dosMemHeapInit (fun _ => 0) 0x20000000 128).1, []⟩
    [.alloc 10, .alloc 16, .store 0x2000002c 4 7, .free 0x20000018] x ∧
    x.live = [0x2000002c] ∧ x.heap.TilesHeap := by
  have hRun : Transition.RunsIf heapStep CutsNode
      ⟨(Heap.dosMemHeapInit (fun _ => 0) 0x20000000 128).1, []⟩
      [.alloc 10, .alloc 16, .store 0x2000002c 4 7, .free 0x20000018] _ :=
    Transition.runsIf_of_isSome (by decide +kernel)
  exact ⟨_, hRun, by decide +kernel,
    (heap_stays_tiled (by decide +kernel) (by decide +kernel) (by decide) hRun).1⟩

/-- With the heap of `dos_config.h`, a request for all but four bytes of the
free node is not cut: `mem_tail` ends four bytes before the heap. -/
theorem uncut_node_loses_bytes : ∃ x, Transition.Runs heapStep
    ⟨(Heap.dosMemHeapInit (fun _ => 0) 0x20000000 (1024 * 30)).1, []⟩ [.alloc 30692] x ∧
    (Heap.dosMemHeapInit (fun _ => 0) 0x20000000 (1024 * 30)).2 = true ∧
    x.live = [0x20000018] ∧ x.heap.nodeEnd x.heap.memTail + 4 = x.heap.alignMemHeapEnd ∧
    ¬x.heap.TilesHeap := by
  have hRun : Transition.Runs heapStep
      ⟨(Heap.dosMemHeapInit (fun _ => 0) 0x20000000 (1024 * 30)).1, []⟩ [.alloc 30692] _ :=
    Transition.runs_of_isSome (by decide +kernel)
  refine ⟨_, hRun, by decide +kernel, by decide +kernel, by decide +kernel, ?_⟩
  rintro ⟨n, -, hEnd, -⟩
  revert hEnd
  decide +kernel

section BestFit

namespace Heap

variable {h : Heap} {bs : List Block} {a size : Nat}

/-- There is a node at `a`, and it is free. -/
def FreeNode (h : Heap) (bs : List Block) (a : Nat) : Prop :=
  (∃ xs b ys, bs = xs ++ b :: ys ∧ a = h.place xs) ∧ h.used a = 0

/-- `p` is null iff no free node has `size` bytes, and otherwise the user memory
of a smallest free node that has. -/
def BestFit (h : Heap) (bs : List Block) (size p : Nat) : Prop :=
  (p = 0 ↔ ¬∃ a, h.FreeNode bs a ∧ size ≤ h.nodeSize a) ∧
    (p ≠ 0 → ∃ a, h.FreeNode bs a ∧ size ≤ h.nodeSize a ∧ p = userMem a ∧
      ∀ c, h.FreeNode bs c → size ≤ h.nodeSize c → h.nodeSize a ≤ h.nodeSize c)

/-- The free nodes that the search looks at. -/
theorem Laid.freeNode_iff (hLaid : h.Laid bs) {xs ys : List Block} {b : Block}
    (hSplit : bs = xs ++ b :: ys) :
    h.nodeSize (h.place xs) = b.size ∧ (h.FreeNode bs (h.place xs) ↔ b.used = false) := by
  subst hSplit
  have hNode := hLaid.focus.node
  refine ⟨hNode.size, ?_, ?_⟩
  · rintro ⟨-, hUsed⟩
    rw [hNode.used] at hUsed
    cases hFree : b.used with
    | false => rfl
    | true =>
        rw [hFree] at hUsed
        cases hUsed
  · intro hFree
    refine ⟨⟨xs, b, ys, rfl, rfl⟩, ?_⟩
    rw [hNode.used, hFree]
    rfl

theorem FreeNode.block (hLaid : h.Laid bs) (hNode : h.FreeNode bs a) :
    ∃ b ∈ bs, b.used = false ∧ h.nodeSize a = b.size := by
  obtain ⟨xs, b, ys, hSplit, rfl⟩ := hNode.1
  obtain ⟨hSize, hFree⟩ := hLaid.freeNode_iff hSplit
  exact ⟨b, by simp [hSplit], hFree.mp hNode, hSize⟩

/-- The search returns the smallest of the free nodes that are strictly larger
than the aligned size. -/
theorem Laid.bestNode_least (hLaid : h.Laid bs) (size : Nat) :
    ∃ best, h.bestNode size = some best ∧
      ((best = 0 ∧ ∀ a, h.FreeNode bs a → h.nodeSize a ≤ size) ∨
        best ≠ 0 ∧ h.FreeNode bs best ∧ size < h.nodeSize best ∧
          ∀ a, h.FreeNode bs a → size < h.nodeSize a → h.nodeSize best ≤ h.nodeSize a) := by
  obtain ⟨best, hFound, hBest⟩ := hLaid.bestNode size
  refine ⟨best, hFound, ?_⟩
  cases hBest with
  | null hNull hNone =>
      refine Or.inl ⟨hNull, ?_⟩
      intro a hNode
      obtain ⟨b, hMem, hFree, hSize⟩ := hNode.block hLaid
      rw [hSize]
      exact Nat.le_of_not_lt fun hLt => hNone b hMem ⟨hFree, hLt⟩
  | found front b back hSplit hPlace hFits hLeast =>
      rw [List.nil_append] at hPlace
      obtain ⟨hSize, hFree⟩ := hLaid.freeNode_iff hSplit
      have hPos : 0 < h.place front := by
        rw [hSplit] at hLaid
        exact hLaid.focus.place_pos
      rw [hPlace]
      refine Or.inr ⟨by omega, hFree.mpr hFits.1, hSize.symm ▸ hFits.2, ?_⟩
      intro a hNode hLt
      obtain ⟨c, hMem, hFree', hSize'⟩ := hNode.block hLaid
      rw [hSize, hSize']
      rw [hSize'] at hLt
      exact hLeast c hMem ⟨hFree', hLt⟩

end Heap

/-- `dos_mem_alloc` returns, and what it returns is a best fit iff no free node
has exactly the rounded size. Such a node is a smallest one that is large enough,
and the search passes over it. -/
theorem alloc_takes_best_fit (h : Heap) (bs : List Block) (size : Nat) (hLaid : h.Laid bs)
    (hSize : size + 3 < 2 ^ 32) :
    ∃ h' p, h.dosMemAlloc size = some (h', p) ∧
      (h.BestFit bs ((size + 3) / 4 * 4) p ↔
        ∀ a, h.FreeNode bs a → h.nodeSize a ≠ (size + 3) / 4 * 4) := by
  have hAlign : dosAlign size = (size + 3) / 4 * 4 := by
    rw [dosAlign, Nat.mod_eq_of_lt hSize]
  obtain ⟨best, hFound, hBest⟩ := hLaid.bestNode_least (dosAlign size)
  have hAlloc := hLaid.dosMemAlloc_eq hFound
  rw [hAlign] at hBest
  rcases hBest with ⟨hNull, hNone⟩ | ⟨hSome, hNode, hLarge, hLeast⟩
  · rw [if_pos hNull] at hAlloc
    refine ⟨h, 0, hAlloc, fun hFit a hNode hExact => ?_, fun hExact =>
      ⟨⟨fun _ => ?_, fun _ => rfl⟩, ?_⟩⟩
    · exact hFit.1.mp rfl ⟨a, hNode, Nat.le_of_eq hExact.symm⟩
    · rintro ⟨a, hNode, hLe⟩
      exact hExact a hNode (Nat.le_antisymm (hNone a hNode) hLe)
    · exact fun hp => absurd rfl hp
  · rw [if_neg hSome] at hAlloc
    have hUser : Heap.userMem best ≠ 0 := by simp [Heap.userMem, memNodeSize]
    refine ⟨_, _, hAlloc, fun hFit a hNode' hExact => ?_, fun hExact => ⟨⟨?_, ?_⟩, fun _ => ?_⟩⟩
    · obtain ⟨c, -, -, hSame, hSmallest⟩ := hFit.2 hUser
      obtain rfl : best = c := Nat.add_right_cancel hSame
      have hLess := hSmallest a hNode' (Nat.le_of_eq hExact.symm)
      omega
    · exact fun hZero => absurd hZero hUser
    · exact fun hNone => absurd ⟨best, hNode, Nat.le_of_lt hLarge⟩ hNone
    · refine ⟨best, hNode, Nat.le_of_lt hLarge, rfl, fun c hNode' hLe => ?_⟩
      exact hLeast c hNode' (Nat.lt_of_le_of_ne hLe (hExact c hNode').symm)

/-- The one free node of a heap of 128 bytes. -/
theorem Heap.freeNode_init : ∃ bs, (dosMemHeapInit (fun _ => 0) 0x20000000 128).1.Tiled bs ∧
    ∀ a, (dosMemHeapInit (fun _ => 0) 0x20000000 128).1.FreeNode bs a ↔ a = 0x20000010 := by
  obtain ⟨b, hFree, hTiled⟩ : ∃ b : Block, b.used = false ∧
      (dosMemHeapInit (fun _ => 0) 0x20000000 128).1.Tiled [b] :=
    dosMemHeapInit_tiled (by decide +kernel) (by decide +kernel) (by decide)
  have hPlace : (dosMemHeapInit (fun _ => 0) 0x20000000 128).1.place [] = 0x20000010 := by
    decide +kernel
  refine ⟨[b], hTiled, fun a => ⟨?_, ?_⟩⟩
  · rintro ⟨⟨xs, c, ys, hSplit, rfl⟩, -⟩
    obtain ⟨rfl, -⟩ | ⟨zs, rfl, hNil⟩ := List.cons_eq_append_iff.mp hSplit
    · exact hPlace
    · simp at hNil
  · rintro rfl
    rw [← hPlace]
    exact (hTiled.freeNode_iff (show [b] = [] ++ b :: [] from rfl)).2.mpr hFree

/-- The node has 104 bytes, of which 10 are asked for. -/
theorem alloc_takes_best_fit_ten : ∃ h',
    (Heap.dosMemHeapInit (fun _ => 0) 0x20000000 128).1.dosMemAlloc 10 = some (h', 0x20000018) := by
  obtain ⟨bs, hTiled, hNodes⟩ := Heap.freeNode_init
  have hSize : (Heap.dosMemHeapInit (fun _ => 0) 0x20000000 128).1.nodeSize 0x20000010 = 104 := by
    decide +kernel
  obtain ⟨h', p, hAlloc, hFit⟩ := alloc_takes_best_fit _ bs 10 hTiled.toLaid (by decide)
  obtain ⟨hNull, hSome⟩ := hFit.mpr fun a hNode => by
    rw [(hNodes a).mp hNode, hSize]
    decide
  have hFits : ∃ a, (Heap.dosMemHeapInit (fun _ => 0) 0x20000000 128).1.FreeNode bs a ∧
      (10 + 3) / 4 * 4 ≤ (Heap.dosMemHeapInit (fun _ => 0) 0x20000000 128).1.nodeSize a :=
    ⟨0x20000010, (hNodes _).mpr rfl, by rw [hSize]; decide⟩
  obtain ⟨a, hNode, -, rfl, -⟩ := hSome fun hZero => hNull.mp hZero hFits
  rw [(hNodes a).mp hNode] at hAlloc
  exact ⟨h', hAlloc⟩

/-- A request for exactly the bytes of the only free node fails. -/
theorem exact_fit_refused : ∃ bs, (Heap.dosMemHeapInit (fun _ => 0) 0x20000000 128).1.Tiled bs ∧
    (Heap.dosMemHeapInit (fun _ => 0) 0x20000000 128).1.FreeNode bs 0x20000010 ∧
    (Heap.dosMemHeapInit (fun _ => 0) 0x20000000 128).1.nodeSize 0x20000010 = 104 ∧
    (104 + 3) / 4 * 4 = 104 ∧
    ((Heap.dosMemHeapInit (fun _ => 0) 0x20000000 128).1.dosMemAlloc 104).map Prod.snd = some 0 := by
  obtain ⟨bs, hTiled, hNodes⟩ := Heap.freeNode_init
  exact ⟨bs, hTiled, (hNodes _).mpr rfl, by decide +kernel, by decide, by decide +kernel⟩

end BestFit

end DoraOS
